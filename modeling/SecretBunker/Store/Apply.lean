import SecretBunker.Store.Keys
import SecretBunker.Store.Secrets
import SecretBunker.Store.Sync

/-!
# 反映の仕様

`applyGroupSync` はどんな mirror の上でも成功し、一つの group を状態のとおりに揃える。
ほかの group に及ぶのは規則 1 だけで、identity の行が group をまたいで共有されるからである。
名前と endpoint の対応が状態の ACL と食い違わない identity は、行も許可も失わない。
-/

namespace SecretBunker

open Relational

namespace Store

variable {db db' : Db}

/-- identity と ACL のほかの表が同じ。 -/
structure OnlyAcl (db db' : Db) : Prop where
  groups : db'.secretGroup = db.secretGroup
  wraps : db'.dekWrap = db.dekWrap
  secrets : db'.secret = db.secret
  versions : db'.secretVersion = db.secretVersion

variable {mid : Db} {acl : List AclEntry} {gid : Nat} {deks : List DekEntry} {name : String}

theorem OnlyAcl.trans (h : OnlyAcl db mid) (h' : OnlyAcl mid db') : OnlyAcl db db' where
  groups := h'.groups.trans h.groups
  wraps := h'.wraps.trans h.wraps
  secrets := h'.secrets.trans h.secrets
  versions := h'.versions.trans h.versions

/-! ## 規則 1 -/

/-- 名前と endpoint の対応が、ACL のどの行とも食い違わない。 -/
def Agrees (acl : List AclEntry) (name endpoint : String) : Prop :=
  ∀ e ∈ acl, e.identityName = name ↔ e.endpointId = endpoint

/-- `acl` の identity を揃えた database。 -/
structure Adopted (acl : List AclEntry) (db db' : Db) : Prop where
  only : OnlyAcl db db'
  present : ∀ e ∈ acl, ∃ i ∈ db'.identity,
    i.endpointId = e.endpointId ∧ i.name = e.identityName ∧ i.serviceAdmin = false
  kept : ∀ i ∈ db.identity, Agrees acl i.name i.endpointId →
    (∃ i' ∈ db'.identity, i'.id = i.id ∧ i'.name = i.name ∧ i'.endpointId = i.endpointId ∧
      (i.serviceAdmin = false → i'.serviceAdmin = false)) ∧
    ∀ a ∈ db.groupAcl, a.identityId = i.id → a ∈ db'.groupAcl
  acl : ∀ a ∈ db'.groupAcl, a ∈ db.groupAcl

/-- 同じ名前の古い鍵。 -/
def staleName (entry : AclEntry) (i : Identity) : Bool :=
  i.name == entry.identityName && i.endpointId != entry.endpointId

theorem staleName_eq_false {entry : AclEntry} {i : Identity} :
    staleName entry i = false ↔ (i.name = entry.identityName → i.endpointId = entry.endpointId) := by
  unfold staleName
  rw [Bool.and_eq_false_imp]
  simp

/-- 古い鍵が消えた後なら、`entry` の名前と endpoint は一つの行に収まる。 -/
theorem upsertIdentity_spec {entry : AclEntry}
    (hname : ∀ i ∈ db.identity, i.name = entry.identityName → i.endpointId = entry.endpointId) :
    ∃ db', db.upsertIdentity entry.endpointId entry.identityName = some db' ∧ OnlyAcl db db' ∧
      db'.groupAcl = db.groupAcl ∧
      (∃ i ∈ db'.identity, i.endpointId = entry.endpointId ∧ i.name = entry.identityName ∧
        i.serviceAdmin = false) ∧
      ∀ i ∈ db.identity, Db.renameIdentity entry.endpointId entry.identityName i ∈ db'.identity := by
  unfold Db.upsertIdentity
  split
  · next hex =>
    obtain ⟨i₀, hi₀, he₀⟩ := hex
    have hinj : ∀ a ∈ db.identity, ∀ b ∈ db.identity,
        Row.Conflict (Db.renameIdentity entry.endpointId entry.identityName a)
          (Db.renameIdentity entry.endpointId entry.identityName b) → a = b := by
      intro a ha b hb hc
      rcases hc with hid | he | hn
      · rw [Db.renameIdentity_id, Db.renameIdentity_id] at hid
        exact Table.eq_of_conflict ha hb (Or.inl hid)
      · rw [Db.renameIdentity_endpointId, Db.renameIdentity_endpointId] at he
        exact Table.eq_of_conflict ha hb (Or.inr (Or.inl he))
      · -- 名前が重なるのは、どちらも `entry` の endpoint を持つときだけである
        refine Table.eq_of_conflict ha hb ?_
        unfold Db.renameIdentity at hn
        split at hn <;> split at hn
        · next ha' hb' => exact Or.inr (Or.inl (ha'.trans hb'.symm))
        · next hb' => exact absurd (hname b hb hn.symm) hb'
        · next ha' _ => exact absurd (hname a ha hn) ha'
        · exact Or.inr (Or.inr hn)
    obtain ⟨t, ht⟩ := Table.modify_isSome hinj
    split
    · next hn => rw [ht] at hn; cases hn
    · next t' ht' =>
      refine ⟨_, rfl, ⟨rfl, rfl, rfl, rfl⟩, rfl, ?_, ?_⟩
      · refine ⟨_, (Table.mem_modify ht').mpr ⟨i₀, hi₀, rfl⟩, ?_⟩
        rw [Db.renameIdentity, if_pos he₀]
        exact ⟨he₀, rfl, rfl⟩
      · exact fun i hi => (Table.mem_modify ht').mpr ⟨i, hi, rfl⟩
  · next hno =>
    have hnew : ∀ i ∈ db.identity,
        ¬ Row.Conflict i (db.newIdentity entry.endpointId entry.identityName false) := by
      rintro i hi (hid | he | hn)
      · exact nextRowid_not_mem _ (List.mem_map.mpr ⟨i, hi, hid⟩)
      · exact hno ⟨i, hi, he⟩
      · exact hno ⟨i, hi, hname i hi hn⟩
    obtain ⟨t, ht⟩ := Table.insert_isSome hnew
    unfold Db.insertIdentity
    split
    · next hn => rw [ht] at hn; cases hn
    · next t' ht' =>
      refine ⟨_, rfl, ⟨rfl, rfl, rfl, rfl⟩, rfl, ?_, ?_⟩
      · exact ⟨_, (Table.mem_insert ht').mpr (Or.inr rfl), rfl, rfl, rfl⟩
      · intro i hi
        rw [Db.renameIdentity, if_neg fun he => hno ⟨i, hi, he⟩]
        exact (Table.mem_insert ht').mpr (Or.inl hi)

/-- 一つの登録は、必ず通る。 -/
theorem adoptIdentity_spec (db : Db) (entry : AclEntry) :
    ∃ db', adoptIdentity db entry = some db' ∧ Adopted [entry] db db' := by
  have hmem : ∀ i, i ∈ (db.deleteIdentity (staleName entry)).identity ↔
      i ∈ db.identity ∧ staleName entry i = false := fun i => Table.mem_delete
  obtain ⟨db', hdb', honly, hacl, hpresent, hkept⟩ :=
    @upsertIdentity_spec (db.deleteIdentity (staleName entry)) entry
      fun i hi => staleName_eq_false.mp ((hmem i).mp hi).2
  refine ⟨db', hdb', ⟨honly.groups, honly.wraps, honly.secrets, honly.versions⟩, ?_, ?_, ?_⟩
  · intro e he
    rw [List.mem_singleton.mp he]
    exact hpresent
  · intro i hi hag
    have hag := hag entry List.mem_cons_self
    have hfresh : staleName entry i = false := staleName_eq_false.mpr fun hn => (hag.mp hn.symm).symm
    refine ⟨⟨_, hkept i ((hmem i).mpr ⟨hi, hfresh⟩), Db.renameIdentity_id _ _ _, ?_,
      Db.renameIdentity_endpointId _ _ _, ?_⟩, ?_⟩
    · unfold Db.renameIdentity
      split
      · next he => exact hag.mpr he.symm
      · rfl
    · unfold Db.renameIdentity
      split
      · exact fun _ => rfl
      · exact id
    · intro a ha hai
      rw [hacl]
      refine Table.mem_cascade.mpr ⟨ha, ?_⟩
      intro j hj hja
      rwa [Table.eq_of_conflict hj hi (Or.inl (hja.trans hai))]
  · intro a ha
    rw [hacl] at ha
    exact (Table.mem_cascade.mp ha).1

theorem Adopted.nil (db : Db) : Adopted [] db db where
  only := ⟨rfl, rfl, rfl, rfl⟩
  present := fun _ he => absurd he List.not_mem_nil
  kept := fun i hi _ => ⟨⟨i, hi, rfl, rfl, rfl, id⟩, fun _ ha _ => ha⟩
  acl := fun _ ha => ha

/-- 先に揃えた行と食い違わない限り、続けて揃えてよい。 -/
theorem Adopted.append {acl' : List AclEntry} (h : Adopted acl db mid) (h' : Adopted acl' mid db')
    (hag : ∀ e ∈ acl, Agrees acl' e.identityName e.endpointId) :
    Adopted (acl ++ acl') db db' where
  only := h.only.trans h'.only
  present := by
    intro e he
    rcases List.mem_append.mp he with he | he
    · obtain ⟨i, hi, hie, hin, hia⟩ := h.present e he
      obtain ⟨⟨i', hi', -, hn, hep, hadm⟩, -⟩ := h'.kept i hi (by rw [hin, hie]; exact hag e he)
      exact ⟨i', hi', hep.trans hie, hn.trans hin, hadm hia⟩
    · exact h'.present e he
  kept := by
    intro i hi hi_ag
    obtain ⟨⟨i₁, hi₁, hid₁, hn₁, he₁, ha₁⟩, hacl₁⟩ :=
      h.kept i hi fun e he => hi_ag e (List.mem_append_left _ he)
    obtain ⟨⟨i₂, hi₂, hid₂, hn₂, he₂, ha₂⟩, hacl₂⟩ := h'.kept i₁ hi₁ (by
      rw [hn₁, he₁]
      exact fun e he => hi_ag e (List.mem_append_right _ he))
    refine ⟨⟨i₂, hi₂, hid₂.trans hid₁, hn₂.trans hn₁, he₂.trans he₁, fun ha => ha₂ (ha₁ ha)⟩, ?_⟩
    intro a ha hai
    exact hacl₂ a (hacl₁ a ha hai) (hai.trans hid₁.symm)
  acl := fun a ha => h.acl a (h'.acl a ha)

/-- 名前も endpoint も重ならない登録は、必ず通る。 -/
theorem adoptIdentities_spec (db : Db) (hn : (acl.map (·.identityName)).Nodup)
    (he : (acl.map (·.endpointId)).Nodup) :
    ∃ db', acl.foldlM adoptIdentity db = some db' ∧ Adopted acl db db' := by
  induction acl generalizing db with
  | nil => exact ⟨db, rfl, Adopted.nil db⟩
  | cons e rest ih =>
    rw [List.map_cons, List.nodup_cons] at hn he
    obtain ⟨mid, hmid, hone⟩ := adoptIdentity_spec db e
    obtain ⟨db', hdb', hrest⟩ := ih mid hn.2 he.2
    refine ⟨db', ?_, hone.append hrest ?_⟩
    · rw [List.foldlM_cons, hmid]
      exact hdb'
    · intro e' he'
      rw [List.mem_singleton.mp he']
      -- 名前も endpoint も重ならないので、後の行とはどちらも一致しない
      intro x hx
      exact iff_of_false (fun h => hn.1 (h ▸ List.mem_map_of_mem hx))
        (fun h => he.1 (h ▸ List.mem_map_of_mem hx))

/-! ## 規則 2 -/

/-- `acl` の行が指す identity の許可。 -/
def Grants (db : Db) (acl : List AclEntry) (a : AclRow) : Prop :=
  ∃ e ∈ acl, ∃ i ∈ db.identity, i.id = a.identityId ∧ i.endpointId = e.endpointId ∧ a.perms = e.perms

/-- `entry` の入れる行。 -/
def entryRow (db : Db) (gid : Nat) (entry : AclEntry) : AclRow :=
  ⟨((identityByEndpoint db entry.endpointId).map (·.id)).getD 0, gid, entry.perms⟩

theorem entryRow_eq {entry : AclEntry} {i : Identity} (hi : i ∈ db.identity)
    (he : i.endpointId = entry.endpointId) : entryRow db gid entry = ⟨i.id, gid, entry.perms⟩ := by
  rw [entryRow, identityByEndpoint_eq_some.mpr ⟨hi, he⟩]
  rfl

theorem adoptAcls_spec (hg : ∃ g ∈ db.secretGroup, g.id = gid)
    (hi : ∀ e ∈ acl, ∃ i ∈ db.identity, i.endpointId = e.endpointId) :
    ∃ db', acl.foldlM (fun db e => adoptAcl db gid e) db = some db' ∧ OnlyAcl db db' ∧
      db'.identity = db.identity ∧
      db'.groupAcl = acl.foldl (fun t e => t.upsert (entryRow db gid e)) db.groupAcl := by
  induction acl generalizing db with
  | nil => exact ⟨db, rfl, ⟨rfl, rfl, rfl, rfl⟩, rfl, rfl⟩
  | cons e rest ih =>
    obtain ⟨i, him, hie⟩ := hi e List.mem_cons_self
    obtain ⟨mid, hmid⟩ : ∃ mid, db.upsertAcl i.id gid e.perms = some mid :=
      ⟨_, dif_pos ⟨⟨i, him, rfl⟩, hg⟩⟩
    have hadopt : adoptAcl db gid e = some mid := by
      unfold adoptAcl
      rw [identityByEndpoint_eq_some.mpr ⟨him, hie⟩]
      exact hmid
    obtain ⟨hi', hg', rfl⟩ := upsertAcl_eq_some hmid
    obtain ⟨db', hdb', honly, hid, hacl⟩ :=
      @ih (db.withAcl (db.groupAcl.upsert ⟨i.id, gid, e.perms⟩) hi' hg') hg
        fun e he => hi e (List.mem_cons_of_mem _ he)
    refine ⟨db', ?_, ⟨honly.groups, honly.wraps, honly.secrets, honly.versions⟩, hid, ?_⟩
    · rw [List.foldlM_cons, hadopt]
      exact hdb'
    · rw [hacl, List.foldl_cons, entryRow_eq him hie]
      rfl

/-- group の行を消してから入れ直した ACL。 -/
theorem mem_replacedAcl (hnd : (acl.map (·.endpointId)).Nodup)
    (hi : ∀ e ∈ acl, ∃ i ∈ db.identity, i.endpointId = e.endpointId) {a : AclRow} :
    a ∈ acl.foldl (fun t e => t.upsert (entryRow db gid e)) (db.groupAcl.delete (·.groupId == gid)) ↔
      (a ∈ db.groupAcl ∧ a.groupId ≠ gid) ∨ (a.groupId = gid ∧ Grants db acl a) := by
  have hpair : acl.Pairwise fun e e' => ¬ Row.Conflict (entryRow db gid e) (entryRow db gid e') := by
    unfold List.Nodup at hnd
    rw [List.pairwise_map] at hnd
    refine hnd.imp_of_mem ?_
    intro e e' he he' hne hc
    obtain ⟨i, him, hie⟩ := hi e he
    obtain ⟨j, hjm, hje⟩ := hi e' he'
    rw [entryRow_eq him hie, entryRow_eq hjm hje] at hc
    rw [Table.eq_of_conflict him hjm (Or.inl hc.1)] at hie
    exact hne (hie.symm.trans hje)
  rw [Table.mem_foldl_upsert hpair, Table.mem_delete]
  refine or_congr ?_ ?_
  · simp only [beq_eq_false_iff_ne]
    refine and_iff_left_of_imp ?_
    rintro ⟨-, hne⟩ e - ⟨-, hgid⟩
    exact hne hgid
  · constructor
    · rintro ⟨e, he, rfl⟩
      obtain ⟨i, him, hie⟩ := hi e he
      rw [entryRow_eq him hie]
      exact ⟨rfl, e, he, i, him, rfl, hie, rfl⟩
    · rintro ⟨rfl, e, he, i, him, hid, hie, hp⟩
      refine ⟨e, he, ?_⟩
      rw [entryRow_eq him hie, hid, ← hp]

/-- group `gid` の ACL を `acl` に置き換えた database。 -/
structure Regranted (acl : List AclEntry) (gid : Nat) (db db' : Db) : Prop where
  holders : ∀ e ∈ acl, ∃ i ∈ db'.identity,
    i.endpointId = e.endpointId ∧ i.name = e.identityName ∧ i.serviceAdmin = false
  granted : ∀ a, a.groupId = gid → (a ∈ db'.groupAcl ↔ Grants db' acl a)
  others : ∀ a ∈ db'.groupAcl, a.groupId ≠ gid → a ∈ db.groupAcl
  kept : ∀ i ∈ db.identity, Agrees acl i.name i.endpointId →
    (∃ i' ∈ db'.identity, i'.id = i.id ∧ i'.name = i.name ∧ i'.endpointId = i.endpointId ∧
      (i.serviceAdmin = false → i'.serviceAdmin = false)) ∧
    ∀ a ∈ db.groupAcl, a.identityId = i.id → a.groupId ≠ gid → a ∈ db'.groupAcl

theorem Regranted.congr (h : Regranted acl gid db mid) (hi : db'.identity = mid.identity)
    (ha : db'.groupAcl = mid.groupAcl) : Regranted acl gid db db' := by
  obtain ⟨hholders, hgranted, hothers, hkept⟩ := h
  unfold Grants at hgranted
  rw [← hi] at hholders
  simp only [← hi, ← ha] at hgranted hothers hkept
  exact ⟨hholders, hgranted, hothers, hkept⟩

/-- 規則 1 と 2 を続けて行う。 -/
theorem regrant_spec (hg : ∃ g ∈ db.secretGroup, g.id = gid)
    (hn : (acl.map (·.identityName)).Nodup) (he : (acl.map (·.endpointId)).Nodup) :
    ∃ mid db', acl.foldlM adoptIdentity db = some mid ∧
      acl.foldlM (fun db e => adoptAcl db gid e) (mid.deleteAcl (·.groupId == gid)) = some db' ∧
      OnlyAcl db db' ∧ Regranted acl gid db db' := by
  obtain ⟨mid, hmid, hadopted⟩ := adoptIdentities_spec db hn he
  have hpresent : ∀ e ∈ acl, ∃ i ∈ mid.identity, i.endpointId = e.endpointId :=
    fun e he => (hadopted.present e he).imp fun _ h => ⟨h.1, h.2.1⟩
  obtain ⟨db', hdb', honly, hid, hacl⟩ := @adoptAcls_spec (mid.deleteAcl (·.groupId == gid)) acl gid
    (by
      show ∃ g ∈ mid.secretGroup, _
      rw [hadopted.only.groups]
      exact hg) hpresent
  have hid : db'.identity = mid.identity := hid
  have hmem : ∀ a, a ∈ db'.groupAcl ↔
      (a ∈ mid.groupAcl ∧ a.groupId ≠ gid) ∨ (a.groupId = gid ∧ Grants mid acl a) := by
    intro a
    rw [hacl]
    exact mem_replacedAcl he hpresent
  refine ⟨mid, db', hmid, hdb', hadopted.only.trans ⟨honly.groups, honly.wraps, honly.secrets,
    honly.versions⟩, ?_, ?_, ?_, ?_⟩
  · rw [hid]
    exact hadopted.present
  · intro a ha
    rw [hmem]
    unfold Grants
    rw [hid]
    exact ⟨fun h => (h.resolve_left fun hc => hc.2 ha).2, fun h => Or.inr ⟨ha, h⟩⟩
  · intro a ha hne
    rcases (hmem a).mp ha with ⟨ha, -⟩ | ⟨he, -⟩
    · exact hadopted.acl a ha
    · exact absurd he hne
  · intro i hi hag
    rw [hid]
    obtain ⟨hex, hrows⟩ := hadopted.kept i hi hag
    exact ⟨hex, fun a ha hai hne => (hmem a).mpr (Or.inl ⟨hrows a ha hai, hne⟩)⟩

/-! ## 規則 3 -/

/-- wrap と DEK の version のほかの表が同じ。 -/
structure OnlyWraps (db db' : Db) : Prop where
  identities : db'.identity = db.identity
  acl : db'.groupAcl = db.groupAcl
  groups : db'.secretGroup = db.secretGroup
  secrets : db'.secret = db.secret
  versions : db'.secretVersion = db.secretVersion

theorem OnlyWraps.trans (h : OnlyWraps db mid) (h' : OnlyWraps mid db') :
    OnlyWraps db db' where
  identities := h'.identities.trans h.identities
  acl := h'.acl.trans h.acl
  groups := h'.groups.trans h.groups
  secrets := h'.secrets.trans h.secrets
  versions := h'.versions.trans h.versions

theorem adoptDek_spec (hg : ∃ g ∈ db.secretGroup, g.id = gid) (own : String) (dek : DekEntry) :
    ∃ db', adoptDek db own gid dek = some db' ∧ OnlyWraps db db' ∧
      db'.dekWrap = db.dekWrap.upsert ⟨gid, dek.version, own, dek.wrapped⟩ := by
  obtain ⟨mid, hmid⟩ : ∃ mid, db.insertDekOrIgnore gid dek.version = some mid := ⟨_, dif_pos hg⟩
  have hmid' : ∃ t ht, mid = db.withDeks t ht := by
    unfold Db.insertDekOrIgnore at hmid
    rw [dif_pos hg] at hmid
    exact ⟨_, _, (Option.some.inj hmid).symm⟩
  obtain ⟨t, ht, rfl⟩ := hmid'
  obtain ⟨db', hdb'⟩ : ∃ db', (db.withDeks t ht).upsertWrap gid dek.version own dek.wrapped = some db' :=
    ⟨_, dif_pos hg⟩
  refine ⟨db', ?_, ?_⟩
  · unfold adoptDek
    rw [hmid]
    exact hdb'
  · obtain ⟨_, rfl⟩ := upsertWrap_eq_some hdb'
    exact ⟨⟨rfl, rfl, rfl, rfl, rfl⟩, rfl⟩

theorem adoptDeks_spec (hg : ∃ g ∈ db.secretGroup, g.id = gid) (own : String)
    (deks : List DekEntry) :
    ∃ db', deks.foldlM (fun db d => adoptDek db own gid d) db = some db' ∧ OnlyWraps db db' ∧
      db'.dekWrap = deks.foldl (fun t d => t.upsert ⟨gid, d.version, own, d.wrapped⟩) db.dekWrap := by
  induction deks generalizing db with
  | nil => exact ⟨db, rfl, ⟨rfl, rfl, rfl, rfl, rfl⟩, rfl⟩
  | cons d rest ih =>
    obtain ⟨mid, hmid, honly, hw⟩ := adoptDek_spec hg own d
    obtain ⟨db', hdb', honly', hw'⟩ := @ih mid (by rw [honly.groups]; exact hg)
    refine ⟨db', ?_, honly.trans honly', ?_⟩
    · rw [List.foldlM_cons, hmid]
      exact hdb'
    · rw [hw', hw]
      rfl

/-- version の wrap。重なれば後のものが残る。 -/
def latestDek : List DekEntry → Nat → Option Bytes
  | [], _ => none
  | d :: rest, v => (latestDek rest v).or (if d.version = v then some d.wrapped else none)

theorem latestDek_eq_some {v : Nat} {b : Bytes} (h : latestDek deks v = some b) :
    ⟨v, b⟩ ∈ deks := by
  induction deks with
  | nil => cases h
  | cons d rest ih =>
    rw [latestDek, Option.or_eq_some_iff] at h
    rcases h with h | ⟨-, h⟩
    · exact List.mem_cons_of_mem _ (ih h)
    · split at h
      · next hv =>
        cases h
        rw [← hv]
        exact List.mem_cons_self
      · cases h

theorem latestDek_eq_none {v : Nat} : latestDek deks v = none ↔ ∀ d ∈ deks, d.version ≠ v := by
  induction deks with
  | nil => simp [latestDek]
  | cons d rest ih =>
    rw [latestDek, Option.or_eq_none_iff, ih, List.forall_mem_cons, and_comm]
    simp

/-- wrap を順に入れた表。重なる version では後の wrap が残る。 -/
theorem mem_adoptedWraps {own : String} {t : Table WrapRow} {w : WrapRow} :
    w ∈ deks.foldl (fun t d => t.upsert ⟨gid, d.version, own, d.wrapped⟩) t ↔
      (w ∈ t ∧ ¬ (w.groupId = gid ∧ w.recipient = own ∧ latestDek deks w.dekVersion ≠ none)) ∨
        (w.groupId = gid ∧ w.recipient = own ∧ latestDek deks w.dekVersion = some w.wrapped) := by
  induction deks generalizing t with
  | nil => simp [latestDek]
  | cons d rest ih =>
    rw [List.foldl_cons, ih, Table.mem_upsert, latestDek]
    obtain ⟨g, v, r, b⟩ := w
    simp only [Row.Conflict, WrapRow.mk.injEq]
    cases latestDek rest v with
    | some b' => grind
    | none => grind

/-- 入れた後に古い wrap を消すと、その group に残るのは状態の wrap だけである。 -/
theorem mem_dropStaleWraps {own : String}
    (hw : mid.dekWrap = deks.foldl (fun t d => t.upsert ⟨gid, d.version, own, d.wrapped⟩) db.dekWrap)
    {w : WrapRow} :
    w ∈ (dropStaleWraps mid own gid deks).dekWrap ↔
      (w ∈ db.dekWrap ∧ w.groupId ≠ gid) ∨
        (w.groupId = gid ∧ w.recipient = own ∧ latestDek deks w.dekVersion = some w.wrapped) := by
  have hlisted : (deks.any fun d => d.version == w.dekVersion) = true ↔
      latestDek deks w.dekVersion ≠ none := by
    simp [latestDek_eq_none]
  show w ∈ mid.dekWrap.delete _ ↔ _
  rw [Table.mem_delete, hw, mem_adoptedWraps]
  simp only [Bool.and_eq_false_iff, Bool.or_eq_false_iff, beq_eq_false_iff_ne, bne_eq_false_iff_eq,
    Bool.not_eq_false', hlisted]
  by_cases hg : w.groupId = gid <;> by_cases hr : w.recipient = own <;>
    by_cases hl : latestDek deks w.dekVersion = none <;> simp [hg, hr, hl]

/-! ## 規則 4 と 5 -/

/-- `(group, name)` の見え方：一覧の version と、現在の行。 -/
def slot (db : Db) (gid : Nat) (name : String) : Option Nat × Option SecretDataRow :=
  (secretVersion db gid name, secretDataCurrent db gid name)

/-- `(group, name)` の行：secret の行と、その version の行のすべて。 -/
def holding (db : Db) (gid : Nat) (name : String) : Option (SecretRow × List VersionRow) :=
  (secretRow db gid name).map fun s => (s, db.secretVersion.rows.filter (·.secretId == s.id))

/-- 行から決まる見え方。 -/
def seen : Option (SecretRow × List VersionRow) → Option Nat × Option SecretDataRow
  | none => (none, none)
  | some (s, versions) =>
    (some s.currentVersion, (versions.find? (·.version == s.currentVersion)).map (·.data))

theorem slot_eq_seen (db : Db) (gid : Nat) (name : String) :
    slot db gid name = seen (holding db gid name) := by
  unfold slot secretVersion secretDataCurrent holding
  cases secretRow db gid name with
  | none => rfl
  | some s =>
    simp only [Option.map_some, Option.bind_some, seen, currentRow, Table.find?, List.find?_filter,
      Bool.decide_and, Bool.decide_eq_true]

theorem holding_congr (hs : db'.secret = db.secret) (hv : db'.secretVersion = db.secretVersion)
    (gid : Nat) (name : String) : holding db' gid name = holding db gid name := by
  unfold holding secretRow
  rw [hs, hv]

theorem slot_congr (hs : db'.secret = db.secret) (hv : db'.secretVersion = db.secretVersion)
    (gid : Nat) (name : String) : slot db' gid name = slot db gid name := by
  rw [slot_eq_seen, slot_eq_seen, holding_congr hs hv]

theorem holding_eq_none : holding db gid name = none ↔ secretRow db gid name = none :=
  Option.map_eq_none_iff

theorem slot_of_absent (h : secretRow db gid name = none) : slot db gid name = (none, none) := by
  rw [slot_eq_seen, holding_eq_none.mpr h]
  rfl

/-- 消されない secret の行は、version の行も含めて変わらない。 -/
theorem holding_deleteSecret_kept {p : SecretRow → Bool}
    (h : ∀ s ∈ db.secret, s.groupId = gid → s.name = name → p s = false) :
    holding (db.deleteSecret p) gid name = holding db gid name := by
  have hrow : secretRow (db.deleteSecret p) gid name = secretRow db gid name := by
    refine Option.ext fun s => ?_
    rw [secretRow_eq_some, secretRow_eq_some]
    show s ∈ db.secret.delete p ∧ _ ↔ _
    rw [Table.mem_delete]
    exact ⟨fun ⟨⟨hs, _⟩, hgn⟩ => ⟨hs, hgn⟩, fun ⟨hs, hgn⟩ => ⟨⟨hs, h s hs hgn.1 hgn.2⟩, hgn⟩⟩
  unfold holding
  rw [hrow]
  cases hs : secretRow db gid name with
  | none => rfl
  | some s =>
    obtain ⟨hm, hg, hn⟩ := secretRow_eq_some.mp hs
    have hver : (db.deleteSecret p).secretVersion.rows.filter (·.secretId == s.id) =
        db.secretVersion.rows.filter (·.secretId == s.id) := by
      show (List.filter _ _).filter _ = _
      rw [List.filter_filter]
      refine List.filter_congr fun v _ => ?_
      -- cascade で消えるのは、消される secret の version だけである
      refine Bool.and_eq_left_iff_imp.mpr fun hv => ?_
      rw [Bool.not_eq_true', List.any_eq_false]
      intro s' hs' hp
      rw [Bool.and_eq_true, decide_eq_true_eq] at hp
      rw [Table.eq_of_conflict hs' hm (Or.inl (hp.2.trans (beq_iff_eq.mp hv))), h s hm hg hn] at hp
      cases hp.1
    rw [Option.map_some, Option.map_some, hver]

theorem slot_deleteSecret_kept {p : SecretRow → Bool}
    (h : ∀ s ∈ db.secret, s.groupId = gid → s.name = name → p s = false) :
    slot (db.deleteSecret p) gid name = slot db gid name := by
  rw [slot_eq_seen, slot_eq_seen, holding_deleteSecret_kept h]

theorem holding_eraseSecret (db : Db) (gid g : Nat) (name n : String) :
    holding (eraseSecret db gid name) g n = if g = gid ∧ n = name then none else holding db g n := by
  split
  · next h =>
    obtain ⟨rfl, rfl⟩ := h
    refine holding_eq_none.mpr (secretRow_eq_none.mpr ?_)
    intro s hs hg hn
    have hp := (Table.mem_delete.mp hs).2
    simp [hg, hn] at hp
  · next h =>
    refine holding_deleteSecret_kept ?_
    rintro s - rfl rfl
    rw [Bool.and_eq_false_imp, beq_iff_eq]
    intro hg
    exact beq_eq_false_iff_ne.mpr fun hn => h ⟨hg, hn⟩

/-- secret のほかの表が同じ。 -/
structure OnlySecrets (db db' : Db) : Prop where
  identities : db'.identity = db.identity
  acl : db'.groupAcl = db.groupAcl
  groups : db'.secretGroup = db.secretGroup
  wraps : db'.dekWrap = db.dekWrap

theorem OnlySecrets.trans (h : OnlySecrets db mid) (h' : OnlySecrets mid db') :
    OnlySecrets db db' where
  identities := h'.identities.trans h.identities
  acl := h'.acl.trans h.acl
  groups := h'.groups.trans h.groups
  wraps := h'.wraps.trans h.wraps

/-- 取り寄せた行を version の行にしたもの。 -/
def fetchedRow (secret : FetchedSecret) (sid : Nat) : VersionRow :=
  ⟨sid, secret.version, secret.dekVersion, secret.nonce, secret.ciphertext, secret.createdAt,
    secret.createdBy⟩

/-- 取り寄せた行に置き換わった後の行。version の行は一つだけである。 -/
def fetchedHolding (secret : FetchedSecret) (sid gid : Nat) : SecretRow × List VersionRow :=
  (⟨sid, gid, secret.name, secret.version⟩, [fetchedRow secret sid])

theorem seen_fetchedHolding (secret : FetchedSecret) (sid gid : Nat) :
    seen (some (fetchedHolding secret sid gid)) =
      (some secret.version, some secret.toSecretDataRow) := by
  simp [seen, fetchedHolding, fetchedRow, VersionRow.data]

/-- secret とその version の行を一つずつ足すと、足した名前だけがその行を持つ。 -/
theorem holding_inserted {sid : Nat} {secret : FetchedSecret}
    (hs : db.secret.insert ⟨sid, gid, secret.name, secret.version⟩ = some db'.secret)
    (hv : db.secretVersion.insert (fetchedRow secret sid) = some db'.secretVersion) (g : Nat)
    (n : String) :
    holding db' g n = if g = gid ∧ n = secret.name then some (fetchedHolding secret sid gid)
      else holding db g n := by
  have hnew := (Table.insert_eq_some_iff.mp hs).1
  have hrow : secretRow db' g n = (secretRow db g n).or
      (if gid = g ∧ secret.name = n then some ⟨sid, gid, secret.name, secret.version⟩ else none) := by
    refine (Table.find?_insert hs _).trans ?_
    simp [secretRow]
  have hver : ∀ i, db'.secretVersion.rows.filter (·.secretId == i) =
      db.secretVersion.rows.filter (·.secretId == i) ++
        if sid = i then [fetchedRow secret sid] else [] := by
    intro i
    rw [(Table.insert_eq_some_iff.mp hv).2, List.filter_append]
    by_cases hi : sid = i <;> simp [fetchedRow, hi]
  unfold holding
  rw [hrow]
  split
  · next h =>
    obtain ⟨rfl, rfl⟩ := h
    have hnone : secretRow db gid secret.name = none :=
      secretRow_eq_none.mpr fun s hs hg hn => hnew s hs (Or.inr ⟨hg, hn⟩)
    have hold : db.secretVersion.rows.filter (·.secretId == sid) = [] := by
      rw [List.filter_eq_nil_iff]
      intro v hv hi
      exact no_version_of_new (s := ⟨sid, gid, secret.name, secret.version⟩)
        (fun s hs hid => hnew s hs (Or.inl hid)) v hv (beq_iff_eq.mp hi)
    rw [hnone, if_pos ⟨rfl, rfl⟩, Option.none_or, Option.map_some, hver, hold, if_pos rfl]
    rfl
  · next h =>
    rw [if_neg fun hc => h ⟨hc.1.symm, hc.2.symm⟩, Option.or_none]
    refine Option.map_congr fun s hr => ?_
    have hne : sid ≠ s.id := fun hid => hnew s (secretRow_eq_some.mp hr).1 (Or.inl hid.symm)
    rw [hver, if_neg hne, List.append_nil]

/-- 取り寄せた行が、同じ名前の行に代わる。 -/
theorem replaceSecret_spec (hg : ∃ g ∈ db.secretGroup, g.id = gid) (secret : FetchedSecret) :
    ∃ db', replaceSecret db gid secret = some db' ∧ OnlySecrets db db' ∧
      ∃ sid, ∀ g n, holding db' g n = if g = gid ∧ n = secret.name then
        some (fetchedHolding secret sid gid) else holding db g n := by
  have hnone : secretRow (eraseSecret db gid secret.name) gid secret.name = none := by
    rw [← holding_eq_none, holding_eraseSecret, if_pos ⟨rfl, rfl⟩]
  obtain ⟨sid, mid, hmid⟩ := @insertSecret_succeeds (eraseSecret db gid secret.name) gid
    secret.name hg hnone secret.version
  obtain ⟨-, -, hnew, -⟩ := insertSecret_spec hmid
  obtain ⟨t, hg', hv', ht, rfl⟩ := insertSecret_eq_some hmid
  obtain ⟨db', hdb'⟩ := @insertVersion_succeeds
    ((eraseSecret db gid secret.name).withSecrets t _ hg' hv') (fetchedRow secret sid)
    ⟨_, (Table.mem_insert ht).mpr (Or.inr rfl), rfl⟩ fun w hw hi => absurd hi (hnew w hw)
  have hreplace : replaceSecret db gid secret = some db' := by
    unfold replaceSecret
    rw [hmid]
    exact hdb'
  obtain ⟨u, hg'', hv'', hu, rfl⟩ := insertVersion_eq_some hdb'
  refine ⟨_, hreplace, ⟨rfl, rfl, rfl, rfl⟩, sid, ?_⟩
  intro g n
  rw [holding_inserted ht hu, holding_eraseSecret]
  by_cases h : g = gid ∧ n = secret.name <;> simp [h]

/-- `name` の取り寄せた行。重なれば後の行が残る。 -/
def latest : List FetchedSecret → String → Option FetchedSecret
  | [], _ => none
  | s :: rest, name => (latest rest name).or (if s.name = name then some s else none)

theorem latest_eq_some {fetched : List FetchedSecret} {f : FetchedSecret}
    (h : latest fetched name = some f) : f ∈ fetched ∧ f.name = name := by
  induction fetched with
  | nil => cases h
  | cons s rest ih =>
    rw [latest, Option.or_eq_some_iff] at h
    rcases h with h | ⟨-, h⟩
    · exact ⟨List.mem_cons_of_mem _ (ih h).1, (ih h).2⟩
    · split at h
      · next hn =>
        cases h
        exact ⟨List.mem_cons_self, hn⟩
      · cases h

theorem latest_eq_none {fetched : List FetchedSecret} :
    latest fetched name = none ↔ ∀ f ∈ fetched, f.name ≠ name := by
  induction fetched with
  | nil => simp [latest]
  | cons s rest ih =>
    rw [latest, Option.or_eq_none_iff, ih, List.forall_mem_cons, and_comm]
    simp

/-- 取り寄せた行の見え方。 -/
def fetchedSlot (fetched : List FetchedSecret) (name : String)
    (old : Option Nat × Option SecretDataRow) : Option Nat × Option SecretDataRow :=
  match latest fetched name with
  | some f => (some f.version, some f.toSecretDataRow)
  | none => old

/-- `(group, name)` の行が、取り寄せた行のうち最後のものに置き換わった。無ければ元のままである。 -/
def Refreshed (fetched : List FetchedSecret) (gid : Nat) (name : String)
    (old new : Option (SecretRow × List VersionRow)) : Prop :=
  match latest fetched name with
  | some f => ∃ sid, new = some (fetchedHolding f sid gid)
  | none => new = old

theorem Refreshed.seen {fetched : List FetchedSecret}
    {old new : Option (SecretRow × List VersionRow)} (h : Refreshed fetched gid name old new) :
    seen new = fetchedSlot fetched name (seen old) := by
  unfold Refreshed at h
  unfold fetchedSlot
  cases hl : latest fetched name with
  | none =>
    rw [hl] at h
    rw [h]
  | some f =>
    rw [hl] at h
    obtain ⟨sid, rfl⟩ := h
    exact seen_fetchedHolding f sid gid

/-- 届いた secret を順に置き換える。他の group は変わらない。 -/
theorem replaceSecrets_spec (hg : ∃ g ∈ db.secretGroup, g.id = gid) (fetched : List FetchedSecret) :
    ∃ db', fetched.foldlM (fun db s => replaceSecret db gid s) db = some db' ∧ OnlySecrets db db' ∧
      (∀ n, Refreshed fetched gid n (holding db gid n) (holding db' gid n)) ∧
      ∀ g n, g ≠ gid → holding db' g n = holding db g n := by
  induction fetched generalizing db with
  | nil => exact ⟨db, rfl, ⟨rfl, rfl, rfl, rfl⟩, fun _ => rfl, fun _ _ _ => rfl⟩
  | cons s rest ih =>
    obtain ⟨mid, hmid, honly, sid, hone⟩ := replaceSecret_spec hg s
    obtain ⟨db', hdb', honly', hown, hother⟩ := @ih mid (by rw [honly.groups]; exact hg)
    refine ⟨db', ?_, honly.trans honly', ?_, ?_⟩
    · rw [List.foldlM_cons, hmid]
      exact hdb'
    · intro n
      have hrest := hown n
      unfold Refreshed at hrest ⊢
      rw [latest]
      cases hl : latest rest n with
      | some f =>
        rw [hl] at hrest
        exact hrest
      | none =>
        rw [hl] at hrest
        have hrest : holding db' gid n = holding mid gid n := hrest
        rw [hrest, hone]
        by_cases hn : s.name = n
        · simp only [hn, ↓reduceIte, Option.none_or, true_and]
          exact ⟨sid, rfl⟩
        · simp [hn, Ne.symm hn]
    · intro g n hne
      rw [hother g n hne, hone, if_neg fun hc => hne hc.1]

theorem eraseSecrets_spec (db : Db) (gid : Nat) (names : List String) :
    OnlySecrets db (names.foldl (fun db name => eraseSecret db gid name) db) ∧
      ∀ g n, holding (names.foldl (fun db name => eraseSecret db gid name) db) g n =
        if g = gid ∧ n ∈ names then none else holding db g n := by
  induction names generalizing db with
  | nil => exact ⟨⟨rfl, rfl, rfl, rfl⟩, fun g n => by simp⟩
  | cons name rest ih =>
    obtain ⟨honly, hrows⟩ := ih (eraseSecret db gid name)
    refine ⟨⟨honly.identities, honly.acl, honly.groups, honly.wraps⟩, ?_⟩
    intro g n
    rw [List.foldl_cons, hrows, holding_eraseSecret]
    by_cases hgid : g = gid
    · by_cases hn : n = name <;> by_cases hr : n ∈ rest <;> simp [hgid, hn, hr]
    · simp [hgid]

theorem mem_unlistedSecrets {secrets : List SecretEntry} :
    name ∈ unlistedSecrets db gid secrets ↔
      secretRow db gid name ≠ none ∧ ∀ e ∈ secrets, e.name ≠ name := by
  unfold unlistedSecrets
  rw [List.mem_filter, mem_sortOn, List.mem_map, ne_eq, secretRow_eq_none]
  simp only [List.mem_filter, beq_iff_eq, Bool.not_eq_true', List.any_eq_false, not_forall, not_not,
    exists_prop]
  refine and_congr_left fun _ => exists_congr fun s => ?_
  rw [and_assoc]
  rfl

/-- 規則 5 の後の行。 -/
theorem holding_unlisted (db : Db) (gid : Nat) (secrets : List SecretEntry) (g : Nat) (n : String) :
    holding ((unlistedSecrets db gid secrets).foldl (fun db name => eraseSecret db gid name) db) g n =
      if g = gid ∧ ∀ e ∈ secrets, e.name ≠ n then none else holding db g n := by
  rw [(eraseSecrets_spec db gid _).2]
  by_cases hgid : g = gid
  · simp only [hgid, true_and]
    by_cases hlist : ∀ e ∈ secrets, e.name ≠ n
    · rw [if_pos hlist]
      split
      · rfl
      · next h =>
        -- 一覧に無いのに消されなかったのは、手元にも無かったからである
        refine holding_eq_none.mpr (not_not.mp fun hrow => h ?_)
        exact mem_unlistedSecrets.mpr ⟨hrow, hlist⟩
    · rw [if_neg hlist, if_neg fun h => hlist (mem_unlistedSecrets.mp h).2]
  · rw [if_neg fun h => hgid h.1, if_neg fun h => hgid h.1]

/-! ## 反映の全体 -/

/-- group は一つだけあり、ほかの名前は元のままである。 -/
theorem insertGroupOrIgnore_spec (db : Db) (name : String) :
    ∃ gid, groupId (db.insertGroupOrIgnore name) name = some gid ∧
      (∀ g, groupId db name = some g → g = gid) ∧
      ∀ n, n ≠ name → groupId (db.insertGroupOrIgnore name) n = groupId db n := by
  have hmem : ∀ g, g ∈ (db.insertGroupOrIgnore name).secretGroup ↔ g ∈ db.secretGroup ∨
      (g = db.newGroup name ∧ ∀ y ∈ db.secretGroup, ¬ Row.Conflict y (db.newGroup name)) :=
    fun g => Table.mem_insertOrIgnore
  have hothers : ∀ n, n ≠ name → groupId (db.insertGroupOrIgnore name) n = groupId db n := by
    intro n hn
    refine Option.ext fun gid => ?_
    rw [groupId_eq_some, groupId_eq_some, hmem]
    refine or_iff_left ?_
    rintro ⟨he, -⟩
    exact hn (congrArg GroupRow.name he)
  cases hg : groupId db name with
  | some gid =>
    refine ⟨gid, groupId_eq_some.mpr ((hmem _).mpr (Or.inl (groupId_eq_some.mp hg))), ?_, hothers⟩
    exact fun g he => (Option.some.inj he).symm
  | none =>
    refine ⟨(db.newGroup name).id, groupId_eq_some.mpr ((hmem _).mpr (Or.inr ⟨rfl, ?_⟩)), ?_, hothers⟩
    · rintro y hy (hid | hn)
      · exact nextRowid_not_mem _ (List.mem_map.mpr ⟨y, hy, hid⟩)
      · exact groupId_eq_none.mp hg y hy hn
    · exact fun g he => nomatch he

theorem groupId_congr (h : db'.secretGroup = db.secretGroup) (name : String) :
    groupId db' name = groupId db name := by
  unfold groupId
  rw [h]

/-- group `gid` を `state` に揃えた database。 -/
structure Applied (own : String) (state : GroupSyncState) (fetched : List FetchedSecret) (gid : Nat)
    (db db' : Db) : Prop where
  located : groupId db' state.name = some gid
  before : ∀ g, groupId db state.name = some g → g = gid
  others : ∀ n, n ≠ state.name → groupId db' n = groupId db n
  acl : Regranted (effectiveAcl state.acl) gid db db'
  wraps : ∀ w, w ∈ db'.dekWrap ↔ (w ∈ db.dekWrap ∧ w.groupId ≠ gid) ∨
    (w.groupId = gid ∧ w.recipient = own ∧ latestDek state.deks w.dekVersion = some w.wrapped)
  secrets : ∀ g n, slot db' g n =
    if g = gid then
      if ∀ e ∈ state.secrets, e.name ≠ n then (none, none) else fetchedSlot fetched n (slot db g n)
    else slot db g n

/-- 規則 5 で消えた名前：一覧に無く、規則 4 の後に手元にあったもの。 -/
def Removed (state : GroupSyncState) (fetched : List FetchedSecret) (gid : Nat) (db : Db)
    (removed : List String) : Prop :=
  ∀ n, n ∈ removed ↔
    (fetchedSlot fetched n (slot db gid n)).1 ≠ none ∧ ∀ e ∈ state.secrets, e.name ≠ n

/-- **反映は必ず成功し、group を状態のとおりに揃える。** -/
theorem applyGroupSync_spec (db : Db) (own : String) (state : GroupSyncState)
    (fetched : List FetchedSecret) :
    ∃ removed db' gid, applyGroupSync db own state fetched =
        some (fetched.map (fun s => .secretChanged s.name s.version) ++
          removed.map .secretDeleted, db') ∧
      Applied own state fetched gid db db' ∧ Removed state fetched gid db removed := by
  obtain ⟨gid, hgid, hbefore, hothers⟩ := insertGroupOrIgnore_spec db state.name
  have hgroup : ∃ g ∈ (db.insertGroupOrIgnore state.name).secretGroup, g.id = gid :=
    ⟨_, groupId_eq_some.mp hgid, rfl⟩
  -- 規則を順に行い、途中の database に名前を付ける
  obtain ⟨d₁, d₂, h₁, h₂, honly₂, hacl₂⟩ := regrant_spec hgroup
    (effectiveAcl_names_nodup state.acl) (effectiveAcl_endpoints_nodup state.acl)
  rw [← honly₂.groups] at hgroup
  obtain ⟨d₃, h₃, honly₃, hw₃⟩ := adoptDeks_spec hgroup own state.deks
  rw [← honly₃.groups] at hgroup
  obtain ⟨d₄, h₄, honly₄, hown₄, hother₄⟩ :=
    @replaceSecrets_spec (dropStaleWraps d₃ own gid state.deks) gid hgroup fetched
  obtain ⟨honly₅, -⟩ := eraseSecrets_spec d₄ gid (unlistedSecrets d₄ gid state.secrets)
  have hrows₅ := holding_unlisted d₄ gid state.secrets
  have hold : ∀ g n, holding (dropStaleWraps d₃ own gid state.deks) g n = holding db g n :=
    holding_congr (honly₃.secrets.trans honly₂.secrets) (honly₃.versions.trans honly₂.versions)
  have hslot₄ : ∀ n, slot d₄ gid n = fetchedSlot fetched n (slot db gid n) := by
    intro n
    rw [slot_eq_seen, (hown₄ n).seen, hold, ← slot_eq_seen]
  have hremoved : Removed state fetched gid db (unlistedSecrets d₄ gid state.secrets) := by
    intro n
    rw [mem_unlistedSecrets, ← hslot₄]
    show _ ↔ (secretRow d₄ gid n).map _ ≠ none ∧ _
    rw [ne_eq, ne_eq, Option.map_eq_none_iff]
  generalize hnames : unlistedSecrets d₄ gid state.secrets = removed at honly₅ hrows₅ hremoved
  have happly : applyGroupSync db own state fetched =
      some (fetched.map (fun s => .secretChanged s.name s.version) ++ removed.map .secretDeleted,
        removed.foldl (fun db name => eraseSecret db gid name) d₄) := by
    unfold applyGroupSync
    simp only [hgid, h₁, h₂, h₃, h₄, hnames, Option.bind_eq_bind, Option.bind_some]
  generalize removed.foldl _ d₄ = d₅ at honly₅ hrows₅ happly
  have hgroups : ∀ n, groupId d₅ n = groupId (db.insertGroupOrIgnore state.name) n :=
    groupId_congr (honly₅.groups.trans (honly₄.groups.trans (honly₃.groups.trans honly₂.groups)))
  refine ⟨removed, d₅, gid, happly, ⟨?_, hbefore, ?_, ?_, ?_, ?_⟩, hremoved⟩
  · rw [hgroups, hgid]
  · intro n hn
    rw [hgroups, hothers n hn]
  · have hacl : Regranted (effectiveAcl state.acl) gid db d₂ :=
      ⟨hacl₂.holders, hacl₂.granted, hacl₂.others, hacl₂.kept⟩
    exact hacl.congr (honly₅.identities.trans (honly₄.identities.trans honly₃.identities))
      (honly₅.acl.trans (honly₄.acl.trans honly₃.acl))
  · intro w
    rw [honly₅.wraps.trans honly₄.wraps, mem_dropStaleWraps hw₃, honly₂.wraps]
    rfl
  · intro g n
    rw [slot_eq_seen, hrows₅]
    by_cases hg : g = gid
    · simp only [hg, true_and, ↓reduceIte]
      split
      · rfl
      · rw [← slot_eq_seen, hslot₄]
    · rw [if_neg fun h => hg h.1, if_neg hg, hother₄ g n hg, hold, ← slot_eq_seen]

end Store

end SecretBunker
