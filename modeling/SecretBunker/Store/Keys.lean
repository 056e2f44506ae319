import SecretBunker.Store.Mutate

/-!
# ACL と鍵の書き込みの仕様

ACL、DEK の version、wrap を書き換える関数が成功したとき、どの表がどう変わるか。
変わらない表は `Db.with…` の形がそのまま示す。
-/

namespace SecretBunker

open Relational

namespace Store

variable {db db' : Db}

/-! ## ACL の見え方 -/

/-- endpoint の identity が group に明示的な READ を持つ。 -/
def HoldsRead (db : Db) (endpoint : String) (groupId : Nat) : Prop :=
  ∃ i ∈ db.identity, i.endpointId = endpoint ∧
    ∃ a ∈ db.groupAcl, a.identityId = i.id ∧ a.groupId = groupId ∧ hasBit a.perms permRead = true

instance (endpoint : String) (groupId : Nat) : Decidable (HoldsRead db endpoint groupId) :=
  inferInstanceAs (Decidable (∃ i ∈ db.identity, _ ∧ ∃ a ∈ db.groupAcl, _ ∧ _ ∧ _ = true))

theorem perms_of_mem {a : AclRow} (ha : a ∈ db.groupAcl) :
    perms db a.identityId a.groupId = a.perms := by
  unfold perms
  rw [aclRow_eq_some.mpr ⟨ha, rfl, rfl⟩]
  rfl

variable {iid gid v n : Nat} {p : UInt8} {r name : String} {wraps : List (String × Bytes)}
  {admin : Bool}

theorem hasBit_perms {bit : UInt8} :
    hasBit (perms db iid gid) bit = true ↔
      ∃ a ∈ db.groupAcl, a.identityId = iid ∧ a.groupId = gid ∧ hasBit a.perms bit = true := by
  constructor
  · intro h
    unfold perms at h
    cases ha : aclRow db iid gid with
    | none =>
      rw [ha] at h
      exact absurd h (by simp [hasBit])
    | some a =>
      obtain ⟨hm, hi, hg⟩ := aclRow_eq_some.mp ha
      rw [ha] at h
      exact ⟨a, hm, hi, hg, h⟩
  · rintro ⟨a, ha, rfl, rfl, h⟩
    rw [perms_of_mem ha]
    exact h

theorem holdsRead_iff {e : String} :
    HoldsRead db e gid ↔
      ∃ i ∈ db.identity, i.endpointId = e ∧ hasBit (perms db i.id gid) permRead = true := by
  simp only [HoldsRead, hasBit_perms]

theorem holdsRead_iff_mem {e : String} :
    HoldsRead db e gid ↔ ∃ i ∈ readGrantedIdentities db gid, i.endpointId = e := by
  simp only [holdsRead_iff, mem_readGrantedIdentities]
  constructor
  · rintro ⟨i, hi, he, hb⟩
    exact ⟨i, ⟨hi, hb⟩, he⟩
  · rintro ⟨i, ⟨hi, hb⟩, he⟩
    exact ⟨i, hi, he, hb⟩

/-- 登録された identity の READ は、その行の許可で決まる。 -/
theorem holdsRead_of_mem {i : Identity} (hi : i ∈ db.identity) :
    HoldsRead db i.endpointId gid ↔ hasBit (perms db i.id gid) permRead = true := by
  rw [holdsRead_iff]
  constructor
  · rintro ⟨j, hj, he, hb⟩
    rwa [Table.eq_of_conflict hj hi (Or.inr (Or.inl he))] at hb
  · intro hb
    exact ⟨i, hi, rfl, hb⟩

theorem group_of_holdsRead {e : String} (h : HoldsRead db e gid) :
    ∃ g ∈ db.secretGroup, g.id = gid := by
  obtain ⟨_, _, _, a, ha, _, hg, _⟩ := h
  rw [← hg]
  exact db.aclGroup a ha

/-! ## ACL の書き込み -/

theorem upsertAcl_eq_some (h : db.upsertAcl iid gid p = some db') :
    ∃ hi hg, db' = db.withAcl (db.groupAcl.upsert ⟨iid, gid, p⟩) hi hg := by
  unfold Db.upsertAcl at h
  split at h
  · exact ⟨_, _, (Option.some.inj h).symm⟩
  · cases h

/-- ACL を `(iid, gid)` だけ `p` に書き換えた database。0 は行を消すことである。 -/
def AclSet (db db' : Db) (iid gid : Nat) (p : UInt8) : Prop :=
  ∃ t hi hg, db' = db.withAcl t hi hg ∧
    ∀ a, a ∈ t ↔ (a ∈ db.groupAcl ∧ ¬ (a.identityId = iid ∧ a.groupId = gid)) ∨
      (p ≠ 0 ∧ a = ⟨iid, gid, p⟩)

theorem aclSet_upsert (hp : p ≠ 0) (h : db.upsertAcl iid gid p = some db') :
    AclSet db db' iid gid p := by
  obtain ⟨hi, hg, rfl⟩ := upsertAcl_eq_some h
  refine ⟨_, hi, hg, rfl, ?_⟩
  intro a
  rw [Table.mem_upsert]
  simp only [hp, ne_eq, not_false_eq_true, true_and]
  rfl

theorem aclSet_setPerms (h : setPerms db iid gid p = some db') : AclSet db db' iid gid p := by
  unfold setPerms at h
  split at h
  · next hp =>
    refine ⟨_, _, _, (Option.some.inj h).symm, ?_⟩
    intro a
    rw [Table.mem_delete]
    simp [hp]
  · next hp => exact aclSet_upsert hp h

/-- 設定した行だけが変わる。 -/
theorem AclSet.aclRow (h : AclSet db db' iid gid p) (i g : Nat) :
    aclRow db' i g =
      if i = iid ∧ g = gid then (if p = 0 then none else some ⟨iid, gid, p⟩) else aclRow db i g := by
  obtain ⟨t, hi, hg, rfl, ht⟩ := h
  by_cases hig : i = iid ∧ g = gid
  · obtain ⟨rfl, rfl⟩ := hig
    rw [if_pos ⟨rfl, rfl⟩]
    by_cases hp : p = 0
    · rw [if_pos hp, aclRow_eq_none]
      intro a ha hai hag
      rcases (ht a).mp ha with ⟨_, hne⟩ | ⟨hp', _⟩
      · exact hne ⟨hai, hag⟩
      · exact hp' hp
    · rw [if_neg hp, aclRow_eq_some]
      exact ⟨(ht _).mpr (Or.inr ⟨hp, rfl⟩), rfl, rfl⟩
  · rw [if_neg hig]
    cases hr : Store.aclRow db i g with
    | none =>
      rw [aclRow_eq_none] at hr ⊢
      intro a ha hai hag
      rcases (ht a).mp ha with ⟨ha, _⟩ | ⟨_, rfl⟩
      · exact hr a ha hai hag
      · exact hig ⟨hai.symm, hag.symm⟩
    | some a =>
      rw [aclRow_eq_some] at hr ⊢
      obtain ⟨ha, rfl, rfl⟩ := hr
      exact ⟨(ht a).mpr (Or.inl ⟨ha, hig⟩), rfl, rfl⟩

theorem AclSet.perms (h : AclSet db db' iid gid p) (i g : Nat) :
    perms db' i g = if i = iid ∧ g = gid then p else perms db i g := by
  unfold Store.perms
  rw [h.aclRow]
  split
  · split
    · next hp => rw [hp]; rfl
    · rfl
  · rfl

/-- 書き換えた identity の endpoint のほかは、READ が変わらない。 -/
theorem AclSet.holdsRead {target : Identity} (h : AclSet db db' target.id gid p)
    (ht : target ∈ db.identity) (e : String) (g : Nat) :
    HoldsRead db' e g ↔
      if e = target.endpointId ∧ g = gid then hasBit p permRead = true else HoldsRead db e g := by
  have hid : db'.identity = db.identity := by
    obtain ⟨_, _, _, rfl, _⟩ := h
    rfl
  by_cases hg : e = target.endpointId ∧ g = gid
  · obtain ⟨rfl, rfl⟩ := hg
    rw [if_pos ⟨rfl, rfl⟩, holdsRead_of_mem (hid ▸ ht), h.perms, if_pos ⟨rfl, rfl⟩]
  · rw [if_neg hg, holdsRead_iff, holdsRead_iff, hid]
    refine exists_congr fun i => and_congr_right fun hi => and_congr_right fun he => ?_
    rw [h.perms, if_neg]
    rintro ⟨hie, hge⟩
    rw [Table.eq_of_conflict hi ht (Or.inl hie)] at he
    exact hg ⟨he.symm, hge⟩

/-! ## DEK の version と wrap の書き込み -/

theorem upsertWrap_eq_some {b : Bytes} (h : db.upsertWrap gid v r b = some db') :
    ∃ hw, db' = db.withWraps (db.dekWrap.upsert ⟨gid, v, r, b⟩) hw := by
  unfold Db.upsertWrap at h
  split at h
  · exact ⟨_, (Option.some.inj h).symm⟩
  · cases h

theorem insertWrap_eq_some {b : Bytes} (h : db.insertWrap gid v r b = some db') :
    ∃ t hw, db' = db.withWraps t hw ∧ ∀ w, w ∈ t ↔ w ∈ db.dekWrap ∨ w = ⟨gid, v, r, b⟩ := by
  unfold Db.insertWrap at h
  split at h
  · cases h
  · next hnew =>
    obtain ⟨hw, rfl⟩ := upsertWrap_eq_some h
    refine ⟨_, hw, rfl, ?_⟩
    intro w
    rw [Table.mem_upsert]
    refine or_congr_left (and_iff_left_of_imp fun hm hc => hnew ⟨w, hm, hc⟩)

/-- 足した wrap だけが増える。 -/
theorem insertWraps_spec (h : insertWraps db gid v wraps = some db') :
    ∃ t hw, db' = db.withWraps t hw ∧
      ∀ w, w ∈ t ↔ w ∈ db.dekWrap ∨ ∃ p ∈ wraps, w = ⟨gid, v, p.1, p.2⟩ := by
  unfold insertWraps at h
  induction wraps generalizing db with
  | nil =>
    rw [List.foldlM_nil] at h
    cases h
    exact ⟨_, _, rfl, by simp⟩
  | cons p rest ih =>
    rw [List.foldlM_cons] at h
    obtain ⟨mid, hmid, hrest⟩ := Option.bind_eq_some_iff.mp h
    obtain ⟨t, hw, rfl, ht⟩ := insertWrap_eq_some hmid
    obtain ⟨t', hw', rfl, ht'⟩ := ih hrest
    refine ⟨t', hw', rfl, ?_⟩
    intro w
    rw [ht']
    show w ∈ t ∨ _ ↔ _
    rw [ht, or_assoc]
    simp only [List.mem_cons, exists_eq_or_imp]

/-- 重ならない wrap を順に upsert すると、衝突した古い行だけが置き換わる。 -/
theorem foldlM_upsert {α : Type} {step : Db → α → Option Db} {row : α → WrapRow} {l : List α}
    (h : l.foldlM step db = some db')
    (hstep : ∀ db a db', step db a = some db' →
      ∃ hw, db' = db.withWraps (db.dekWrap.upsert (row a)) hw)
    (hl : l.Pairwise fun a b => ¬ Row.Conflict (row a) (row b)) :
    ∃ t hw, db' = db.withWraps t hw ∧ ∀ w, w ∈ t ↔
      (w ∈ db.dekWrap ∧ ∀ a ∈ l, ¬ Row.Conflict w (row a)) ∨ ∃ a ∈ l, w = row a := by
  have hfold : ∃ hw, db' = db.withWraps (l.foldl (fun t a => t.upsert (row a)) db.dekWrap) hw := by
    clear hl
    induction l generalizing db with
    | nil =>
      cases h
      exact ⟨_, rfl⟩
    | cons a rest ih =>
      rw [List.foldlM_cons] at h
      obtain ⟨mid, hmid, hrest⟩ := Option.bind_eq_some_iff.mp h
      obtain ⟨_, rfl⟩ := hstep _ _ _ hmid
      exact ih hrest
  obtain ⟨hw, rfl⟩ := hfold
  exact ⟨_, hw, rfl, fun w => Table.mem_foldl_upsert hl⟩

/-- 一人の recipient に version ごとの wrap を入れた database。 -/
theorem upsertWraps_spec {wraps : List (Nat × Bytes)} (hnd : (wraps.map Prod.fst).Nodup)
    (h : upsertWraps db gid r wraps = some db') :
    ∃ t hw, db' = db.withWraps t hw ∧
      ∀ w, w ∈ t ↔
        (w ∈ db.dekWrap ∧
          ¬ (w.groupId = gid ∧ w.dekVersion ∈ wraps.map Prod.fst ∧ w.recipient = r)) ∨
        ∃ p ∈ wraps, w = ⟨gid, p.1, r, p.2⟩ := by
  obtain ⟨t, hw, rfl, ht⟩ := foldlM_upsert h (fun _ _ _ h => upsertWrap_eq_some h)
    ((List.pairwise_map.mp hnd).imp fun hne hc => hne hc.2.1)
  refine ⟨t, hw, rfl, fun w => (ht w).trans (or_congr_left (and_congr_right fun _ => ?_))⟩
  constructor
  · rintro hn ⟨hg, hv, hr⟩
    obtain ⟨p, hp, he⟩ := List.mem_map.mp hv
    exact hn p hp ⟨hg, he.symm, hr⟩
  · intro hn p hp hc
    exact hn ⟨hc.1, List.mem_map.mpr ⟨p, hp, hc.2.1.symm⟩, hc.2.2⟩

theorem insertDek_eq_some (h : db.insertDek gid v = some db') :
    ∃ t hd, db' = db.withDeks t hd ∧ ∀ d, d ∈ t ↔ d ∈ db.groupDek ∨ d = ⟨gid, v⟩ := by
  unfold Db.insertDek at h
  split at h
  · cases h
  · next hnew =>
    unfold Db.insertDekOrIgnore at h
    split at h
    · refine ⟨_, _, (Option.some.inj h).symm, ?_⟩
      intro d
      rw [Table.mem_insertOrIgnore]
      refine or_congr_right (and_iff_left ?_)
      intro y hy hc
      exact hnew ⟨y, hy, hc⟩
    · cases h

/-- 次に使う DEK の version。 -/
def nextDekVersion (db : Db) (gid : Nat) : Nat := (currentDekVersion db gid).getD 0 + 1

theorem lt_nextDekVersion (h : ⟨gid, v⟩ ∈ db.groupDek) : v < nextDekVersion db gid := by
  unfold nextDekVersion
  cases hc : currentDekVersion db gid with
  | none => exact absurd h (currentDekVersion_eq_none.mp hc v)
  | some m =>
    rw [Option.getD_some]
    exact Nat.lt_succ_of_le ((currentDekVersion_eq_some.mp hc).2 v h)

/-- group に version `v` の DEK とその wrap を足した database。 -/
def DekAdded (db db' : Db) (gid v : Nat) (wraps : List (String × Bytes)) : Prop :=
  ∃ td hd tw hw, db' = (db.withDeks td hd).withWraps tw hw ∧
    (∀ d, d ∈ td ↔ d ∈ db.groupDek ∨ d = ⟨gid, v⟩) ∧
    (∀ w, w ∈ tw ↔ w ∈ db.dekWrap ∨ ∃ p ∈ wraps, w = ⟨gid, v, p.1, p.2⟩)

theorem dekAdded_insert {mid : Db} (hmid : db.insertDek gid v = some mid)
    (hfin : insertWraps mid gid v wraps = some db') : DekAdded db db' gid v wraps := by
  obtain ⟨td, hd, rfl, htd⟩ := insertDek_eq_some hmid
  obtain ⟨tw, hw, rfl, htw⟩ := insertWraps_spec hfin
  exact ⟨td, hd, tw, hw, rfl, htd, htw⟩

theorem dekAdded_insertDekVersion (h : insertDekVersion db gid wraps = some (n, db')) :
    n = nextDekVersion db gid ∧ DekAdded db db' gid n wraps := by
  unfold insertDekVersion at h
  obtain ⟨mid, hmid, h⟩ := Option.bind_eq_some_iff.mp h
  obtain ⟨fin, hfin, h⟩ := Option.bind_eq_some_iff.mp h
  cases h
  exact ⟨rfl, dekAdded_insert hmid hfin⟩

theorem dekAdded_addDek (h : addDek db gid wraps = some (n, db')) :
    n = nextDekVersion db gid ∧ DekAdded db db' gid n wraps := by
  unfold addDek at h
  split at h
  · cases h
  · exact dekAdded_insertDekVersion h

theorem mem_deleteWraps {w : WrapRow} :
    w ∈ (deleteWraps db gid r).dekWrap ↔
      w ∈ db.dekWrap ∧ ¬ (w.groupId = gid ∧ w.recipient = r) := by
  show w ∈ db.dekWrap.delete _ ↔ _
  rw [Table.mem_delete]
  simp only [Bool.and_eq_false_iff, beq_eq_false_iff_ne, not_and_or, ne_eq]

/-- group から recipient を外し、version `v` の DEK を足した database。 -/
def RotatedAway (db db' : Db) (gid v : Nat) (r : String) (wraps : List (String × Bytes)) : Prop :=
  ∃ td hd tw hw, db' = (db.withDeks td hd).withWraps tw hw ∧
    (∀ d, d ∈ td ↔ d ∈ db.groupDek ∨ d = ⟨gid, v⟩) ∧
    (∀ w, w ∈ tw ↔ (w ∈ db.dekWrap ∧ ¬ (w.groupId = gid ∧ w.recipient = r)) ∨
      ∃ p ∈ wraps, w = ⟨gid, v, p.1, p.2⟩)

theorem rotatedAway_insertDekVersion
    (h : insertDekVersion (deleteWraps db gid r) gid wraps = some (n, db')) :
    n = nextDekVersion db gid ∧ RotatedAway db db' gid n r wraps := by
  obtain ⟨hn, td, hd, tw, hw, rfl, htd, htw⟩ := dekAdded_insertDekVersion h
  refine ⟨hn, td, hd, tw, hw, rfl, htd, ?_⟩
  intro w
  rw [htw, mem_deleteWraps]

theorem grantWithWraps_spec {wraps : List (Nat × Bytes)} (hnd : (wraps.map Prod.fst).Nodup)
    (h : grantWithWraps db iid gid p wraps r = some db') :
    ∃ mid t hw, AclSet db mid iid gid p ∧ db' = mid.withWraps t hw ∧
      ∀ w, w ∈ t ↔
        (w ∈ db.dekWrap ∧
          ¬ (w.groupId = gid ∧ w.dekVersion ∈ wraps.map Prod.fst ∧ w.recipient = r)) ∨
        ∃ q ∈ wraps, w = ⟨gid, q.1, r, q.2⟩ := by
  unfold grantWithWraps at h
  split at h
  · cases h
  · next hread =>
    have hp : p ≠ 0 := by
      rintro rfl
      exact hread (by decide)
    obtain ⟨mid, hmid, h⟩ := Option.bind_eq_some_iff.mp h
    obtain ⟨t, hw, rfl, ht⟩ := upsertWraps_spec hnd h
    have hset := aclSet_upsert hp hmid
    refine ⟨mid, t, hw, hset, rfl, ?_⟩
    obtain ⟨_, _, _, rfl, _⟩ := hset
    exact ht

theorem revokeReadAndRotate_spec (h : revokeReadAndRotate db gid iid p r wraps = some (n, db')) :
    ∃ mid, AclSet db mid iid gid p ∧ n = nextDekVersion db gid ∧ RotatedAway mid db' gid n r wraps := by
  unfold revokeReadAndRotate at h
  split at h
  · cases h
  · split at h
    · cases h
    · obtain ⟨mid, hmid, h⟩ := Option.bind_eq_some_iff.mp h
      have hset := aclSet_setPerms hmid
      obtain ⟨hn, hrot⟩ := rotatedAway_insertDekVersion h
      refine ⟨mid, hset, ?_, hrot⟩
      obtain ⟨_, _, _, rfl, _⟩ := hset
      exact hn

theorem insertGroup_eq_some (h : db.insertGroup name = some (gid, db')) :
    (∀ g ∈ db.secretGroup, g.id ≠ gid ∧ g.name ≠ name) ∧
      ∃ t hg, db' = db.withGroups t hg ∧ ∀ g, g ∈ t ↔ g ∈ db.secretGroup ∨ g = ⟨gid, name⟩ := by
  unfold Db.insertGroup at h
  split at h
  · cases h
  · next t ht =>
    cases h
    refine ⟨fun g hg => ?_, t, _, rfl, fun g => Table.mem_insert ht⟩
    have hc := (Table.insert_eq_some_iff.mp ht).1 g hg
    exact ⟨fun he => hc (Or.inl he), fun he => hc (Or.inr he)⟩

/-- group を作ると、新しい id に version 1 の DEK と作成者の許可が付く。 -/
theorem createGroup_spec (hp : p ≠ 0) (h : createGroup db name wraps iid p = some db') :
    ∃ gid t hg mid, (∀ g ∈ db.secretGroup, g.id ≠ gid ∧ g.name ≠ name) ∧
      (∀ g, g ∈ t ↔ g ∈ db.secretGroup ∨ g = ⟨gid, name⟩) ∧
      DekAdded (db.withGroups t hg) mid gid 1 wraps ∧ AclSet mid db' iid gid p := by
  unfold createGroup at h
  split at h
  · cases h
  · obtain ⟨⟨gid, db₁⟩, h₁, hrest⟩ := Option.bind_eq_some_iff.mp h
    obtain ⟨db₂, h₂, hrest⟩ := Option.bind_eq_some_iff.mp hrest
    obtain ⟨mid, hmid, hacl⟩ := Option.bind_eq_some_iff.mp hrest
    obtain ⟨hnew, t, hg, rfl, ht⟩ := insertGroup_eq_some h₁
    unfold Db.insertAcl at hacl
    split at hacl
    · cases hacl
    · exact ⟨gid, t, hg, mid, hnew, ht, dekAdded_insert h₂ hmid, aclSet_upsert hp hacl⟩

/-! ## identity の書き込み -/

theorem addIdentity_spec {endpoint : String} (h : addIdentity db name endpoint admin = some db') :
    ∃ i t ht, i.endpointId = endpoint ∧ i.name = name ∧
      (∀ j ∈ db.identity, j.id ≠ i.id ∧ j.endpointId ≠ i.endpointId ∧ j.name ≠ i.name) ∧
      db' = db.withIdentities t ht ∧ ∀ j, j ∈ t ↔ j ∈ db.identity ∨ j = i := by
  unfold addIdentity Db.insertIdentity at h
  split at h
  · cases h
  · next t ht =>
    cases h
    refine ⟨db.newIdentity endpoint name admin, t, _, rfl, rfl, fun j hj => ?_, rfl,
      fun j => Table.mem_insert ht⟩
    have hc := (Table.insert_eq_some_iff.mp ht).1 j hj
    simp only [Row.Conflict, not_or] at hc
    exact hc

/-- 登録を止めるのは、endpoint か名前の衝突だけである。rowid はいつも新しい。 -/
theorem addIdentity_isSome {endpoint : String}
    (hfree : ∀ i ∈ db.identity, i.endpointId ≠ endpoint ∧ i.name ≠ name) :
    ∃ db', addIdentity db name endpoint admin = some db' := by
  obtain ⟨t, ht⟩ : ∃ t, db.identity.insert (db.newIdentity endpoint name admin) = some t := by
    refine Table.insert_isSome fun j hj => ?_
    rintro (hid | he | hn)
    · exact nextRowid_not_mem _ (List.mem_map.mpr ⟨j, hj, hid⟩)
    · exact (hfree j hj).1 he
    · exact (hfree j hj).2 hn
  unfold addIdentity Db.insertIdentity
  split
  · next hnone => exact absurd (hnone.symm.trans ht) (Option.some_ne_none t).symm
  · exact ⟨_, rfl⟩

/-- 新しい identity はまだどの ACL にも現れないので、READ は変わらない。 -/
theorem holdsRead_addIdentity {endpoint : String}
    (h : addIdentity db name endpoint admin = some db') (e : String) (gid : Nat) :
    HoldsRead db' e gid ↔ HoldsRead db e gid := by
  obtain ⟨i, t, ht, -, -, hnew, rfl, hmem⟩ := addIdentity_spec h
  constructor
  · rintro ⟨j, hj, he, a, ha, hai, hag⟩
    rcases (hmem j).mp hj with hj | rfl
    · exact ⟨j, hj, he, a, ha, hai, hag⟩
    · obtain ⟨k, hk, hka⟩ := db.aclIdentity a ha
      exact absurd (hka.trans hai) (hnew k hk).1
  · rintro ⟨j, hj, he, ha⟩
    exact ⟨j, (hmem j).mpr (Or.inl hj), he, ha⟩

theorem mem_setServiceAdmin {j : Identity} :
    j ∈ (db.setServiceAdmin name admin).identity ↔
      ∃ i ∈ db.identity, Db.flagAdmin name admin i = j :=
  @Table.mem_update _ _ _ _ _ (Db.conflict_flagAdmin name admin)

theorem holdsRead_setServiceAdmin (e : String) (gid : Nat) :
    HoldsRead (db.setServiceAdmin name admin) e gid ↔ HoldsRead db e gid := by
  constructor
  · rintro ⟨j, hj, he, a, ha, hai, hag⟩
    obtain ⟨i, hi, rfl⟩ := mem_setServiceAdmin.mp hj
    rw [Db.flagAdmin_endpointId] at he
    rw [Db.flagAdmin_id] at hai
    exact ⟨i, hi, he, a, ha, hai, hag⟩
  · rintro ⟨i, hi, he, a, ha, hai, hag⟩
    refine ⟨_, mem_setServiceAdmin.mpr ⟨i, hi, rfl⟩, ?_, a, ha, ?_, hag⟩
    · rw [Db.flagAdmin_endpointId, he]
    · rw [Db.flagAdmin_id, hai]

theorem aclRow_deleteIdentity {p : Identity → Bool} {i : Identity} (hi : i ∈ db.identity)
    (hp : p i = false) (gid : Nat) : aclRow (db.deleteIdentity p) i.id gid = aclRow db i.id gid := by
  have hkeep : ∀ a ∈ db.groupAcl, a.identityId = i.id → a ∈ (db.deleteIdentity p).groupAcl := by
    intro a ha hai
    refine Table.mem_cascade.mpr ⟨ha, ?_⟩
    intro j hj hja
    rwa [Table.eq_of_conflict hj hi (Or.inl (hja.trans hai))]
  cases hr : aclRow db i.id gid with
  | none =>
    rw [aclRow_eq_none] at hr ⊢
    intro a ha
    exact hr a (Table.mem_cascade.mp ha).1
  | some a =>
    rw [aclRow_eq_some] at hr ⊢
    exact ⟨hkeep a hr.1 hr.2.1, hr.2⟩

/-- identity を消すと、その endpoint の READ だけがすべて消える。 -/
theorem holdsRead_deleteIdentity {target : Identity} (ht : target ∈ db.identity) (e : String)
    (gid : Nat) :
    HoldsRead (db.deleteIdentity (·.name == target.name)) e gid ↔
      HoldsRead db e gid ∧ e ≠ target.endpointId := by
  have hsame : ∀ i ∈ db.identity, (i.name == target.name) = true → i = target := by
    intro i hi hn
    exact Table.eq_of_conflict hi ht (Or.inr (Or.inr (eq_of_beq hn)))
  have hperms : ∀ i ∈ db.identity, (i.name == target.name) = false →
      perms (db.deleteIdentity (·.name == target.name)) i.id gid = perms db i.id gid := by
    intro i hi hn
    unfold perms
    rw [aclRow_deleteIdentity hi hn]
  simp only [holdsRead_iff]
  constructor
  · rintro ⟨i, hi, he, hb⟩
    obtain ⟨hi, hn⟩ := Table.mem_delete.mp hi
    rw [hperms i hi hn] at hb
    refine ⟨⟨i, hi, he, hb⟩, ?_⟩
    rintro rfl
    rw [Table.eq_of_conflict hi ht (Or.inr (Or.inl he)), beq_self_eq_true] at hn
    cases hn
  · rintro ⟨⟨i, hi, he, hb⟩, hne⟩
    have hn : (i.name == target.name) = false := by
      rw [← Bool.not_eq_true]
      intro hn
      exact hne (he.symm.trans (congrArg Identity.endpointId (hsame i hi hn)))
    exact ⟨i, Table.mem_delete.mpr ⟨hi, hn⟩, he, by rw [hperms i hi hn]; exact hb⟩

/-! ## まとめて回す -/

theorem currentDekVersion_congr (h : ∀ v, ⟨gid, v⟩ ∈ db'.groupDek ↔ ⟨gid, v⟩ ∈ db.groupDek) :
    currentDekVersion db' gid = currentDekVersion db gid := by
  refine Option.ext fun v => ?_
  simp only [currentDekVersion_eq_some, h]

theorem nextDekVersion_congr (h : ∀ v, ⟨gid, v⟩ ∈ db'.groupDek ↔ ⟨gid, v⟩ ∈ db.groupDek) :
    nextDekVersion db' gid = nextDekVersion db gid := by
  unfold nextDekVersion
  rw [currentDekVersion_congr h]

/-- 並べた group をそれぞれ一度ずつ回した database。 -/
def RotatedAll (db db' : Db) (rotations : List GroupRotation) : Prop :=
  ∃ td hd tw hw, db' = (db.withDeks td hd).withWraps tw hw ∧
    (∀ d, d ∈ td ↔ d ∈ db.groupDek ∨
      ∃ rot ∈ rotations, d = ⟨rot.1, nextDekVersion db rot.1⟩) ∧
    (∀ w, w ∈ tw ↔
      (w ∈ db.dekWrap ∧ ∀ rot ∈ rotations, ¬ (w.groupId = rot.1 ∧ w.recipient = rot.2.1)) ∨
      ∃ rot ∈ rotations, ∃ p ∈ rot.2.2, w = ⟨rot.1, nextDekVersion db rot.1, p.1, p.2⟩)

theorem RotatedAway.rotatedAll (h : RotatedAway db db' gid (nextDekVersion db gid) r wraps) :
    RotatedAll db db' [(gid, r, wraps)] := by
  obtain ⟨td, hd, tw, hw, rfl, htd, htw⟩ := h
  refine ⟨td, hd, tw, hw, rfl, fun d => ?_, fun w => ?_⟩
  · simp only [htd, List.mem_singleton, exists_eq_left]
  · simp only [htw, List.mem_singleton, forall_eq, exists_eq_left]

/-- 回した group ごとに、新しい version がある。 -/
theorem rotatedAll_foldlM {rotations : List GroupRotation}
    (hnd : (rotations.map Prod.fst).Nodup) (h : rotations.foldlM rotateAway db = some db') :
    RotatedAll db db' rotations := by
  induction rotations generalizing db with
  | nil =>
    rw [List.foldlM_nil] at h
    cases h
    exact ⟨_, _, _, _, rfl, by simp, by simp⟩
  | cons rot rest ih =>
    rw [List.foldlM_cons] at h
    obtain ⟨mid, hmid, h⟩ := Option.bind_eq_some_iff.mp h
    obtain ⟨⟨n, _⟩, hins, rfl⟩ := Option.map_eq_some_iff.mp hmid
    obtain ⟨hn, td, hd, tw, hw, rfl, htd, htw⟩ := rotatedAway_insertDekVersion hins
    rw [List.map_cons, List.nodup_cons] at hnd
    obtain ⟨td', hd', tw', hw', rfl, htd', htw'⟩ := ih hnd.2 h
    -- 残りの group は先頭の group と違うので、次の version も前の database のままである
    have hnext : ∀ r ∈ rest, nextDekVersion ((db.withDeks td hd).withWraps tw hw) r.1 =
        nextDekVersion db r.1 := by
      intro r hr
      refine nextDekVersion_congr fun v => (htd _).trans (or_iff_left ?_)
      intro he
      exact hnd.1 (List.mem_map.mpr ⟨r, hr, (DekRow.mk.inj he).1⟩)
    refine ⟨td', hd', tw', hw', rfl, ?_, ?_⟩
    · intro d
      rw [htd']
      show d ∈ td ∨ _ ↔ _
      rw [htd, or_assoc, List.exists_mem_cons_iff, hn]
      refine or_congr_right (or_congr_right ?_)
      exact exists_congr fun r => and_congr_right fun hr => by rw [hnext r hr]
    · intro w
      rw [htw']
      show (w ∈ tw ∧ _) ∨ _ ↔ _
      rw [htw, List.exists_mem_cons_iff, hn]
      have hrest : (∃ r ∈ rest, ∃ p ∈ r.2.2,
            w = ⟨r.1, nextDekVersion ((db.withDeks td hd).withWraps tw hw) r.1, p.1, p.2⟩) ↔
          ∃ r ∈ rest, ∃ p ∈ r.2.2, w = ⟨r.1, nextDekVersion db r.1, p.1, p.2⟩ :=
        exists_congr fun r => and_congr_right fun hr => by rw [hnext r hr]
      rw [hrest]
      constructor
      · rintro (⟨⟨hm, hne⟩ | hnew, hall⟩ | hold)
        · exact Or.inl ⟨hm, List.forall_mem_cons.mpr ⟨hne, hall⟩⟩
        · exact Or.inr (Or.inl hnew)
        · exact Or.inr (Or.inr hold)
      · rintro (⟨hm, hall⟩ | hnew | hold)
        · obtain ⟨hne, hall⟩ := List.forall_mem_cons.mp hall
          exact Or.inl ⟨Or.inl ⟨hm, hne⟩, hall⟩
        · refine Or.inl ⟨Or.inr hnew, ?_⟩
          obtain ⟨p, -, rfl⟩ := hnew
          intro r hr hc
          exact hnd.1 (List.mem_map.mpr ⟨r, hr, hc.1.symm⟩)
        · exact Or.inr hold

theorem removeIdentityWithRotations_spec {rotations : List GroupRotation} {b : Bool}
    (hnd : (rotations.map Prod.fst).Nodup)
    (h : removeIdentityWithRotations db name rotations = some (b, db')) :
    (b = false ∧ db' = db) ∨
      (b = true ∧ RotatedAll (db.deleteIdentity (·.name == name)) db' rotations) := by
  unfold removeIdentityWithRotations at h
  split at h
  · cases h
  · split at h
    · cases h
      exact Or.inl ⟨rfl, rfl⟩
    · obtain ⟨fin, hfin, h⟩ := Option.bind_eq_some_iff.mp h
      cases h
      exact Or.inr ⟨rfl, rotatedAll_foldlM hnd hfin⟩

/-! ## recovery -/

theorem replaceOperational_eq_some {x : Nat × Nat × Bytes} (h : replaceOperational db x = some db') :
    (∃ b, ⟨x.1, x.2.1, recipientOperational, b⟩ ∈ db.dekWrap) ∧
      ∃ hw, db' = db.withWraps (db.dekWrap.upsert ⟨x.1, x.2.1, recipientOperational, x.2.2⟩) hw := by
  unfold replaceOperational at h
  split at h
  · next hs =>
    obtain ⟨w, hw⟩ := Option.isSome_iff_exists.mp hs
    refine ⟨⟨w.wrapped, dekWrap_eq_some.mp ?_⟩, upsertWrap_eq_some h⟩
    unfold dekWrap
    rw [hw]
    rfl
  · cases h

/-- 並べた operational の wrap を差し替え、新しい公開鍵を記録した database。 -/
def Recovered (db db' : Db) (rewrapped : List (Nat × Nat × Bytes)) (pubkey : String) : Prop :=
  ∃ t hw, db' = (db.withWraps t hw).upsertMeta "operational_pubkey" pubkey ∧
    ∀ w, w ∈ t ↔
      (w ∈ db.dekWrap ∧
        ¬ (w.recipient = recipientOperational ∧
          (w.groupId, w.dekVersion) ∈ rewrapped.map fun x => (x.1, x.2.1))) ∨
      ∃ x ∈ rewrapped, w = ⟨x.1, x.2.1, recipientOperational, x.2.2⟩

/-- 包み直した行だけが代わる。 -/
theorem replaceAll_spec {rewrapped : List (Nat × Nat × Bytes)}
    (hnd : (rewrapped.map fun x => (x.1, x.2.1)).Nodup)
    (h : rewrapped.foldlM replaceOperational db = some db') :
    ∃ t hw, db' = db.withWraps t hw ∧
      ∀ w, w ∈ t ↔
        (w ∈ db.dekWrap ∧
          ¬ (w.recipient = recipientOperational ∧
            (w.groupId, w.dekVersion) ∈ rewrapped.map fun x => (x.1, x.2.1))) ∨
        ∃ x ∈ rewrapped, w = ⟨x.1, x.2.1, recipientOperational, x.2.2⟩ := by
  obtain ⟨t, hw, rfl, ht⟩ := foldlM_upsert h (fun _ _ _ h => (replaceOperational_eq_some h).2)
    ((List.pairwise_map.mp hnd).imp fun hne hc => hne (Prod.ext hc.1 hc.2.1))
  refine ⟨t, hw, rfl, fun w => (ht w).trans (or_congr_left (and_congr_right fun _ => ?_))⟩
  constructor
  · rintro hn ⟨hr, hx⟩
    obtain ⟨x, hx, he⟩ := List.mem_map.mp hx
    obtain ⟨hg, hv⟩ := Prod.mk.inj he
    exact hn x hx ⟨hg.symm, hv.symm, hr⟩
  · intro hn x hx hc
    exact hn ⟨hc.2.2, List.mem_map.mpr ⟨x, hx, (Prod.ext hc.1 hc.2.1).symm⟩⟩

theorem recovered_applyRecovery {rewrapped : List (Nat × Nat × Bytes)} {pubkey : String}
    (hnd : (rewrapped.map fun x => (x.1, x.2.1)).Nodup)
    (h : applyRecovery db rewrapped pubkey = some db') : Recovered db db' rewrapped pubkey := by
  unfold applyRecovery at h
  obtain ⟨mid, hmid, h⟩ := Option.bind_eq_some_iff.mp h
  cases h
  obtain ⟨t, hw, rfl, ht⟩ := replaceAll_spec hnd hmid
  exact ⟨t, hw, rfl, ht⟩

end Store

end SecretBunker
