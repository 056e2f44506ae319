import Mathlib.Logic.Relator
import SecretBunker.Store.Keys
import SecretBunker.Store.Secrets
import SecretBunker.Server.Handler

/-!
# 一人の呼び手から見て同じ二つの database

group の id は database ごとに違いうるので、対応する id の組を関係 `P` で持つ。
対応する group の中身は同じで、呼び手の ACL の行は対応する group の外に無い。
この関係を、読み取りは同じ答えを返すことで、書き込みは関係を保つことで通り抜ける。
-/

namespace SecretBunker

open Relational Store

/-- 対応する group の、database の中身。`blind` な組では secret は version まで同じである。 -/
structure Alike (c : Nat) (P blind : Nat → Nat → Prop) (db₁ db₂ : Db) : Prop where
  biUnique : Relator.BiUnique P
  named : ∀ {g₁ g₂}, P g₁ g₂ → ∃ name, groupId db₁ name = some g₁ ∧ groupId db₂ name = some g₂
  identities : ∀ i, i ∈ db₁.identity ↔ i ∈ db₂.identity
  rowsLeft : ∀ a ∈ db₁.groupAcl, a.identityId = c → ∃ g₂, P a.groupId g₂
  rowsRight : ∀ a ∈ db₂.groupAcl, a.identityId = c → ∃ g₁, P g₁ a.groupId
  acl : ∀ {g₁ g₂}, P g₁ g₂ → ∀ iid p, ⟨iid, g₁, p⟩ ∈ db₁.groupAcl ↔ ⟨iid, g₂, p⟩ ∈ db₂.groupAcl
  deks : ∀ {g₁ g₂}, P g₁ g₂ → ∀ v, ⟨g₁, v⟩ ∈ db₁.groupDek ↔ ⟨g₂, v⟩ ∈ db₂.groupDek
  wraps : ∀ {g₁ g₂}, P g₁ g₂ → ∀ v r b, ⟨g₁, v, r, b⟩ ∈ db₁.dekWrap ↔ ⟨g₂, v, r, b⟩ ∈ db₂.dekWrap
  versions : ∀ {g₁ g₂}, P g₁ g₂ → ∀ n, (secretDataCurrent db₁ g₁ n).map (·.version) =
    (secretDataCurrent db₂ g₂ n).map (·.version)
  rows : ∀ {g₁ g₂}, P g₁ g₂ → ¬ blind g₁ g₂ → ∀ n,
    secretDataCurrent db₁ g₁ n = secretDataCurrent db₂ g₂ n

namespace Alike

variable {c : Nat} {P blind : Nat → Nat → Prop} {db₁ db₂ : Db} {g₁ g₂ : Nat}

theorem symm (h : Alike c P blind db₁ db₂) :
    Alike c (flip P) (flip blind) db₂ db₁ where
  biUnique := ⟨fun _ _ _ h₁ h₂ => h.biUnique.2 h₁ h₂, fun _ _ _ h₁ h₂ => h.biUnique.1 h₁ h₂⟩
  named := fun hp => by
    obtain ⟨name, h₁, h₂⟩ := h.named hp
    exact ⟨name, h₂, h₁⟩
  identities := fun i => (h.identities i).symm
  rowsLeft := h.rowsRight
  rowsRight := h.rowsLeft
  acl := fun hp iid p => (h.acl hp iid p).symm
  deks := fun hp v => (h.deks hp v).symm
  wraps := fun hp v r b => (h.wraps hp v r b).symm
  versions := fun hp n => (h.versions hp n).symm
  rows := fun hp hb n => (h.rows hp hb n).symm

theorem eq_iff (h : Alike c P blind db₁ db₂) {k₁ k₂ : Nat} (hp : P g₁ g₂) (hk : P k₁ k₂) :
    k₁ = g₁ ↔ k₂ = g₂ := by
  constructor
  · rintro rfl
    exact h.biUnique.2 hk hp
  · rintro rfl
    exact h.biUnique.1 hk hp

/-! ## 読み取り -/

section Read

variable (h : Alike c P blind db₁ db₂)
include h

theorem identityByEndpoint_eq (e : String) :
    identityByEndpoint db₁ e = identityByEndpoint db₂ e := by
  refine Option.ext fun i => ?_
  rw [identityByEndpoint_eq_some, identityByEndpoint_eq_some, h.identities]

theorem identityByName_eq (name : String) : identityByName db₁ name = identityByName db₂ name := by
  refine Option.ext fun i => ?_
  rw [identityByName_eq_some, identityByName_eq_some, h.identities]

theorem listIdentities_eq : listIdentities db₁ = listIdentities db₂ := by
  refine sortOn_congr (sortOn_map_nodup (identityNames_nodup db₁))
    (sortOn_map_nodup (identityNames_nodup db₂)) fun i => ?_
  rw [mem_sortOn, mem_sortOn]
  exact h.identities i

theorem aclRow_eq (hp : P g₁ g₂) (iid : Nat) :
    (aclRow db₁ iid g₁).map (·.perms) = (aclRow db₂ iid g₂).map (·.perms) := by
  refine Option.ext fun p => ?_
  rw [aclPerms_eq_some, aclPerms_eq_some, h.acl hp]

theorem perms_eq (hp : P g₁ g₂) (iid : Nat) : perms db₁ iid g₁ = perms db₂ iid g₂ := by
  unfold perms
  rw [h.aclRow_eq hp]

theorem dekWrap_eq (hp : P g₁ g₂) (v : Nat) (r : String) :
    dekWrap db₁ g₁ v r = dekWrap db₂ g₂ v r := by
  refine Option.ext fun b => ?_
  rw [dekWrap_eq_some, dekWrap_eq_some, h.wraps hp]

theorem currentDekVersion_eq (hp : P g₁ g₂) :
    currentDekVersion db₁ g₁ = currentDekVersion db₂ g₂ := by
  refine Option.ext fun v => ?_
  simp only [currentDekVersion_eq_some, h.deks hp]

theorem dekVersions_eq (hp : P g₁ g₂) : dekVersions db₁ g₁ = dekVersions db₂ g₂ := by
  have hnd : ∀ db gid, ((dekVersions db gid).map id).Nodup := by
    intro db gid
    rw [List.map_id]
    exact dekVersions_nodup db gid
  refine sortOn_congr (hnd db₁ g₁) (hnd db₂ g₂) fun v => ?_
  exact mem_dekVersions.trans ((h.deks hp v).trans mem_dekVersions.symm)

theorem readGrantedIdentities_eq (hp : P g₁ g₂) :
    readGrantedIdentities db₁ g₁ = readGrantedIdentities db₂ g₂ := by
  have hnd : ∀ db gid, ((readGrantedIdentities db gid).map (·.name)).Nodup := fun db gid =>
    sortOn_map_nodup ((identityNames_nodup db).sublist (List.filter_sublist.map _))
  refine sortOn_congr (hnd db₁ g₁) (hnd db₂ g₂) fun i => ?_
  refine mem_readGrantedIdentities.trans (Iff.trans ?_ mem_readGrantedIdentities.symm)
  rw [h.identities, h.perms_eq hp]

theorem groupAclEntries_eq (hp : P g₁ g₂) : groupAclEntries db₁ g₁ = groupAclEntries db₂ g₂ := by
  refine sortOn_congr (groupAclEntries_nodup db₁ g₁) (groupAclEntries_nodup db₂ g₂) fun e => ?_
  refine mem_groupAclEntries.trans (Iff.trans ?_ mem_groupAclEntries.symm)
  simp only [h.identities, h.acl hp]

theorem adminCount_eq (hp : P g₁ g₂) : adminCount db₁ g₁ = adminCount db₂ g₂ := by
  have hnd : ∀ (db : Db) gid, ((db.groupAcl.rows.filter fun a =>
      a.groupId == gid && hasBit a.perms permAdmin).map (·.identityId)).Nodup := by
    intro db gid
    refine Table.map_filter_nodup ?_ db.groupAcl
    intro a b ha hb he
    simp only [Bool.and_eq_true, beq_iff_eq] at ha hb
    exact ⟨he, ha.1.trans hb.1.symm⟩
  have hmem : ∀ (db : Db) gid iid, iid ∈ ((db.groupAcl.rows.filter fun a =>
      a.groupId == gid && hasBit a.perms permAdmin).map (·.identityId)) ↔
        ∃ p, ⟨iid, gid, p⟩ ∈ db.groupAcl ∧ hasBit p permAdmin = true := by
    intro db gid iid
    simp only [List.mem_map, List.mem_filter, Bool.and_eq_true, beq_iff_eq]
    constructor
    · rintro ⟨a, ⟨ha, rfl, hb⟩, rfl⟩
      exact ⟨a.perms, ha, hb⟩
    · rintro ⟨p, ha, hb⟩
      exact ⟨_, ⟨ha, rfl, hb⟩, rfl⟩
  have hperm := (List.perm_ext_iff_of_nodup (hnd db₁ g₁) (hnd db₂ g₂)).mpr fun iid => by
    simp only [hmem, h.acl hp]
  have hlen := hperm.length_eq
  rwa [List.length_map, List.length_map] at hlen

theorem groupId_eq (hp : P g₁ g₂) {name : String} (hg : groupId db₁ name = some g₁) :
    groupId db₂ name = some g₂ := by
  obtain ⟨name', h₁, h₂⟩ := h.named hp
  rw [groupId_inj hg h₁]
  exact h₂

theorem groupsForIdentity_sub {e : String × UInt8} (he : e ∈ groupsForIdentity db₁ c) :
    e ∈ groupsForIdentity db₂ c := by
  obtain ⟨g₁, hg, ha⟩ := mem_groupsForIdentity.mp he
  obtain ⟨g₂, hp⟩ := h.rowsLeft _ ha rfl
  exact mem_groupsForIdentity.mpr ⟨g₂, h.groupId_eq hp hg, (h.acl hp _ _).mp ha⟩

theorem groupsForIdentity_eq : groupsForIdentity db₁ c = groupsForIdentity db₂ c :=
  sortOn_congr (groupsForIdentity_nodup db₁ c) (groupsForIdentity_nodup db₂ c) fun _ =>
    ⟨h.groupsForIdentity_sub, h.symm.groupsForIdentity_sub⟩

theorem secretVersion_eq (hc₁ : Complete db₁) (hc₂ : Complete db₂) (hp : P g₁ g₂) (n : String) :
    secretVersion db₁ g₁ n = secretVersion db₂ g₂ n := by
  rw [hc₁.secretVersion_eq, hc₂.secretVersion_eq, h.versions hp]

theorem listSecrets_eq (hc₁ : Complete db₁) (hc₂ : Complete db₂) (hp : P g₁ g₂) :
    listSecrets db₁ g₁ = listSecrets db₂ g₂ := by
  refine sortOn_congr (listSecrets_nodup db₁ g₁) (listSecrets_nodup db₂ g₂) fun e => ?_
  refine mem_listSecrets.trans (Iff.trans ?_ mem_listSecrets.symm)
  rw [h.secretVersion_eq hc₁ hc₂ hp]

/-- 呼び手の許可の検査は、対応する group で同じ答えになる。 -/
theorem authorizeGroup_sub {ident : Identity} (hid : ident.id = c) {needed : UInt8}
    (hneeded : needed ≠ 0) {group : String}
    (hauth : authorizeGroup db₁ ident group needed false = some g₁) :
    ∃ g₂, P g₁ g₂ ∧ authorizeGroup db₂ ident group needed false = some g₂ := by
  unfold authorizeGroup at hauth ⊢
  obtain ⟨gid, hg, hauth⟩ := Option.bind_eq_some_iff.mp hauth
  rw [if_neg (by decide)] at hauth
  split at hauth
  · next hperm =>
    cases hauth
    have hrow : ∃ a, aclRow db₁ ident.id g₁ = some a := by
      rw [← Option.isSome_iff_exists, Option.isSome_iff_ne_none]
      intro hnone
      unfold perms at hperm
      rw [hnone] at hperm
      exact hneeded (hperm.symm.trans (UInt8.zero_and))
    obtain ⟨a, hrow⟩ := hrow
    obtain ⟨ha, hi, rfl⟩ := aclRow_eq_some.mp hrow
    obtain ⟨g₂, hp⟩ := h.rowsLeft a ha (hi.trans hid)
    refine ⟨g₂, hp, ?_⟩
    rw [h.groupId_eq hp hg, Option.bind_some, if_neg (by decide), ← h.perms_eq hp, if_pos hperm]
  · cases hauth

/-- 認可の結果は、どちらでも同じである。 -/
theorem authorizeGroup_rel {ident : Identity} (hid : ident.id = c) {needed : UInt8}
    (hneeded : needed ≠ 0) (group : String) :
    Option.Rel P (authorizeGroup db₁ ident group needed false)
      (authorizeGroup db₂ ident group needed false) := by
  cases h₁ : authorizeGroup db₁ ident group needed false with
  | some g₁ =>
    obtain ⟨g₂, hp, h₂⟩ := h.authorizeGroup_sub hid hneeded h₁
    rw [h₂]
    exact .some hp
  | none =>
    cases h₂ : authorizeGroup db₂ ident group needed false with
    | none => exact .none
    | some g₂ =>
      obtain ⟨g₁, -, h₁'⟩ := h.symm.authorizeGroup_sub hid hneeded h₂
      rw [h₁] at h₁'
      cases h₁'

end Read

/-! ## 書き込み -/

section Write

variable (h : Alike c P blind db₁ db₂)
include h

theorem group_exists (hp : P g₁ g₂) :
    (∃ g ∈ db₁.secretGroup, g.id = g₁) ∧ ∃ g ∈ db₂.secretGroup, g.id = g₂ := by
  obtain ⟨name, h₁, h₂⟩ := h.named hp
  exact ⟨⟨_, groupId_eq_some.mp h₁, rfl⟩, ⟨_, groupId_eq_some.mp h₂, rfl⟩⟩

theorem audit (l₁ l₂ : List AuditRow) : Alike c P blind (db₁.withAudit l₁) (db₂.withAudit l₂) :=
  ⟨h.biUnique, h.named, h.identities, h.rowsLeft, h.rowsRight, h.acl, h.deks, h.wraps, h.versions,
    h.rows⟩

variable (hp : P g₁ g₂)
include hp

theorem upsertAcl (iid : Nat) (p : UInt8) :
    Option.Rel (Alike c P blind) (db₁.upsertAcl iid g₁ p) (db₂.upsertAcl iid g₂ p) := by
  obtain ⟨hg₁, hg₂⟩ := h.group_exists hp
  have hids : (∃ i ∈ db₂.identity, i.id = iid) ↔ ∃ i ∈ db₁.identity, i.id = iid :=
    exists_congr fun i => and_congr_left fun _ => (h.identities i).symm
  unfold Db.upsertAcl
  by_cases hi : ∃ i ∈ db₁.identity, i.id = iid
  · rw [dif_pos ⟨hi, hg₁⟩, dif_pos ⟨hids.mpr hi, hg₂⟩]
    refine .some ⟨h.biUnique, h.named, h.identities, ?_, ?_, ?_, h.deks, h.wraps, h.versions, h.rows⟩
    · intro a ha hc
      rcases Table.mem_upsert.mp ha with ⟨ha, -⟩ | rfl
      · exact h.rowsLeft a ha hc
      · exact ⟨g₂, hp⟩
    · intro a ha hc
      rcases Table.mem_upsert.mp ha with ⟨ha, -⟩ | rfl
      · exact h.rowsRight a ha hc
      · exact ⟨g₁, hp⟩
    · intro k₁ k₂ hk iid' p'
      show _ ∈ db₁.groupAcl.upsert _ ↔ _ ∈ db₂.groupAcl.upsert _
      simp only [Table.mem_upsert, Row.Conflict, AclRow.mk.injEq, h.acl hk, h.eq_iff hp hk]
  · rw [dif_neg fun hc => hi hc.1, dif_neg fun hc => hi (hids.mp hc.1)]
    exact .none

theorem deleteAcl (iid : Nat) :
    Alike c P blind (db₁.deleteAcl fun a => a.identityId == iid && a.groupId == g₁)
      (db₂.deleteAcl fun a => a.identityId == iid && a.groupId == g₂) := by
  refine ⟨h.biUnique, h.named, h.identities, ?_, ?_, ?_, h.deks, h.wraps, h.versions, h.rows⟩
  · exact fun a ha hc => h.rowsLeft a (Table.mem_delete.mp ha).1 hc
  · exact fun a ha hc => h.rowsRight a (Table.mem_delete.mp ha).1 hc
  · intro k₁ k₂ hk iid' p'
    show _ ∈ db₁.groupAcl.delete _ ↔ _ ∈ db₂.groupAcl.delete _
    simp only [Table.mem_delete, h.acl hk, Bool.and_eq_false_iff, beq_eq_false_iff_ne, ne_eq,
      h.eq_iff hp hk]

theorem setPerms (iid : Nat) (p : UInt8) :
    Option.Rel (Alike c P blind) (Store.setPerms db₁ iid g₁ p) (Store.setPerms db₂ iid g₂ p) := by
  unfold Store.setPerms
  split
  · exact .some (h.deleteAcl hp iid)
  · exact h.upsertAcl hp iid p

theorem insertDek (v : Nat) :
    Option.Rel (Alike c P blind) (db₁.insertDek g₁ v) (db₂.insertDek g₂ v) := by
  obtain ⟨hg₁, hg₂⟩ := h.group_exists hp
  have hex : ∀ (db : Db) g, (∃ d ∈ db.groupDek, d.groupId = g ∧ d.version = v) ↔
      ⟨g, v⟩ ∈ db.groupDek := by
    intro db g
    constructor
    · rintro ⟨d, hd, rfl, rfl⟩
      exact hd
    · exact fun hd => ⟨_, hd, rfl, rfl⟩
  unfold Db.insertDek Db.insertDekOrIgnore
  by_cases hm : ⟨g₁, v⟩ ∈ db₁.groupDek
  · rw [if_pos ((hex db₁ g₁).mpr hm), if_pos ((hex db₂ g₂).mpr ((h.deks hp v).mp hm))]
    exact .none
  · have hm₂ : ⟨g₂, v⟩ ∉ db₂.groupDek := fun hc => hm ((h.deks hp v).mpr hc)
    rw [if_neg (fun hc => hm ((hex db₁ g₁).mp hc)), if_neg (fun hc => hm₂ ((hex db₂ g₂).mp hc)),
      dif_pos hg₁, dif_pos hg₂]
    refine .some ⟨h.biUnique, h.named, h.identities, h.rowsLeft, h.rowsRight, h.acl, ?_, h.wraps,
      h.versions, h.rows⟩
    have hno : ∀ {db : Db} {g}, ⟨g, v⟩ ∉ db.groupDek →
        ∀ d ∈ db.groupDek, ¬ Row.Conflict d (⟨g, v⟩ : DekRow) :=
      fun hm d hd hc => hm ((hex _ _).mp ⟨d, hd, hc⟩)
    intro k₁ k₂ hk v'
    show _ ∈ db₁.groupDek.insertOrIgnore _ ↔ _ ∈ db₂.groupDek.insertOrIgnore _
    rw [Table.mem_insertOrIgnore, Table.mem_insertOrIgnore, and_iff_left (hno hm),
      and_iff_left (hno hm₂), h.deks hk, DekRow.mk.injEq, DekRow.mk.injEq, h.eq_iff hp hk]

theorem upsertWrap (v : Nat) (r : String) (b : Bytes) :
    Option.Rel (Alike c P blind) (db₁.upsertWrap g₁ v r b) (db₂.upsertWrap g₂ v r b) := by
  obtain ⟨hg₁, hg₂⟩ := h.group_exists hp
  unfold Db.upsertWrap
  rw [dif_pos hg₁, dif_pos hg₂]
  refine .some ⟨h.biUnique, h.named, h.identities, h.rowsLeft, h.rowsRight, h.acl, h.deks, ?_,
    h.versions, h.rows⟩
  intro k₁ k₂ hk v' r' b'
  show _ ∈ db₁.dekWrap.upsert _ ↔ _ ∈ db₂.dekWrap.upsert _
  simp only [Table.mem_upsert, Row.Conflict, WrapRow.mk.injEq, h.wraps hk, h.eq_iff hp hk]

theorem insertWrap (v : Nat) (r : String) (b : Bytes) :
    Option.Rel (Alike c P blind) (db₁.insertWrap g₁ v r b) (db₂.insertWrap g₂ v r b) := by
  have hex : ∀ (db : Db) g, (∃ w ∈ db.dekWrap, w.groupId = g ∧ w.dekVersion = v ∧ w.recipient = r) ↔
      ∃ b, ⟨g, v, r, b⟩ ∈ db.dekWrap := by
    intro db g
    constructor
    · rintro ⟨w, hw, rfl, rfl, rfl⟩
      exact ⟨w.wrapped, hw⟩
    · exact fun ⟨b, hw⟩ => ⟨_, hw, rfl, rfl, rfl⟩
  have hiff : (∃ b, ⟨g₁, v, r, b⟩ ∈ db₁.dekWrap) ↔ ∃ b, ⟨g₂, v, r, b⟩ ∈ db₂.dekWrap :=
    exists_congr fun b => h.wraps hp v r b
  unfold Db.insertWrap
  by_cases hm : ∃ b, ⟨g₁, v, r, b⟩ ∈ db₁.dekWrap
  · rw [if_pos ((hex db₁ g₁).mpr hm), if_pos ((hex db₂ g₂).mpr (hiff.mp hm))]
    exact .none
  · rw [if_neg (fun hc => hm ((hex db₁ g₁).mp hc)),
      if_neg (fun hc => hm (hiff.mpr ((hex db₂ g₂).mp hc)))]
    exact h.upsertWrap hp v r b

theorem deleteWraps (r : String) :
    Alike c P blind (Store.deleteWraps db₁ g₁ r) (Store.deleteWraps db₂ g₂ r) := by
  refine ⟨h.biUnique, h.named, h.identities, h.rowsLeft, h.rowsRight, h.acl, h.deks, ?_,
    h.versions, h.rows⟩
  intro k₁ k₂ hk v' r' b'
  show _ ∈ db₁.dekWrap.delete _ ↔ _ ∈ db₂.dekWrap.delete _
  simp only [Table.mem_delete, h.wraps hk, Bool.and_eq_false_iff, beq_eq_false_iff_ne, ne_eq,
    h.eq_iff hp hk]

/-- 次の version の番号も同じである。 -/
theorem insertDekVersion (wraps : List (String × Bytes)) :
    Option.Rel (fun x y => Alike c P blind x.2 y.2) (Store.insertDekVersion db₁ g₁ wraps)
      (Store.insertDekVersion db₂ g₂ wraps) := by
  unfold Store.insertDekVersion
  rw [h.currentDekVersion_eq hp]
  refine rel_bind (h.insertDek hp _) fun a b hab => ?_
  refine rel_bind (R := Alike c P blind) ?_ fun a b hab => .some hab
  exact rel_foldlM (fun a b w hab => hab.insertWrap hp _ _ _) wraps hab

theorem addDek (wraps : List (String × Bytes)) :
    Option.Rel (fun x y => Alike c P blind x.2 y.2) (Store.addDek db₁ g₁ wraps)
      (Store.addDek db₂ g₂ wraps) := by
  unfold Store.addDek
  split
  · exact .none
  · exact h.insertDekVersion hp wraps

/-- READ の付与は、見え方を保つ。 -/
theorem grantWithWraps (iid : Nat) (p : UInt8) (wraps : List (Nat × Bytes)) (r : String) :
    Option.Rel (Alike c P blind) (Store.grantWithWraps db₁ iid g₁ p wraps r)
      (Store.grantWithWraps db₂ iid g₂ p wraps r) := by
  unfold Store.grantWithWraps
  split
  · exact .none
  · refine rel_bind (h.upsertAcl hp iid p) fun a b hab => ?_
    exact rel_foldlM (fun a b w hab => hab.upsertWrap hp _ _ _) wraps hab

/-- READ の取り上げは、見え方を保つ。 -/
theorem revokeReadAndRotate (iid : Nat) (p : UInt8) (r : String) (wraps : List (String × Bytes)) :
    Option.Rel (fun x y => Alike c P blind x.2 y.2) (Store.revokeReadAndRotate db₁ g₁ iid p r wraps)
      (Store.revokeReadAndRotate db₂ g₂ iid p r wraps) := by
  unfold Store.revokeReadAndRotate
  split
  · exact .none
  · split
    · exact .none
    · exact rel_bind (h.setPerms hp iid p) fun a b hab =>
        (hab.deleteWraps hp r).insertDekVersion hp wraps

/-- 対応する group の同じ名前に同じ行を置く。 -/
theorem secretSet {db₁' db₂' : Db} {n : String} {row : Option SecretDataRow}
    (h₁ : SecretSet db₁ db₁' g₁ n row) (h₂ : SecretSet db₂ db₂' g₂ n row)
    (hs₁ : ∃ t u hg hv, db₁' = db₁.withSecrets t u hg hv)
    (hs₂ : ∃ t u hg hv, db₂' = db₂.withSecrets t u hg hv) : Alike c P blind db₁' db₂' := by
  have hcur : ∀ {k₁ k₂}, P k₁ k₂ → ∀ n',
      secretDataCurrent db₁' k₁ n' = secretDataCurrent db₂' k₂ n' ∨
        (secretDataCurrent db₁' k₁ n' = secretDataCurrent db₁ k₁ n' ∧
          secretDataCurrent db₂' k₂ n' = secretDataCurrent db₂ k₂ n') := by
    intro k₁ k₂ hk n'
    rw [h₁.current, h₂.current]
    by_cases hc : k₁ = g₁ ∧ n' = n
    · rw [if_pos hc, if_pos ⟨(h.eq_iff hp hk).mp hc.1, hc.2⟩]
      exact Or.inl rfl
    · rw [if_neg hc, if_neg fun hc' => hc ⟨(h.eq_iff hp hk).mpr hc'.1, hc'.2⟩]
      exact Or.inr ⟨rfl, rfl⟩
  obtain ⟨_, _, _, _, rfl⟩ := hs₁
  obtain ⟨_, _, _, _, rfl⟩ := hs₂
  refine ⟨h.biUnique, h.named, h.identities, h.rowsLeft, h.rowsRight, h.acl, h.deks, h.wraps, ?_, ?_⟩
  · intro k₁ k₂ hk n'
    rcases hcur hk n' with he | ⟨e₁, e₂⟩
    · rw [he]
    · rw [e₁, e₂, h.versions hk]
  · intro k₁ k₂ hk hb n'
    rcases hcur hk n' with he | ⟨e₁, e₂⟩
    · exact he
    · rw [e₁, e₂, h.rows hk hb]

end Write

end Alike

end SecretBunker
