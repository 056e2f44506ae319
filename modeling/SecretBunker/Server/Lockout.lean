import SecretBunker.Server.Frame

/-!
# 締め出しが起きないこと

service admin の印と group の ADMIN は、SetServiceAdmin、RemoveIdentity、Grant の三つの枝で
落とせる。どの枝も落とす前に数え、最後の一人なら拒む。数える相手と落とす相手が同じ状態で
見られていることが要点である。
-/

namespace SecretBunker

open Relational Store

variable {prim : Primitives} {db db' : Db} {inner : Inner} {amb : Ambient} {ident : Identity}

/-- service admin が居る。 -/
def HasServiceAdmin (db : Db) : Prop := ∃ i ∈ db.identity, i.serviceAdmin = true

/-- group に ADMIN を持つ identity が居る。 -/
def HasGroupAdmin (db : Db) (gid : Nat) : Prop :=
  ∃ i ∈ db.identity, hasBit (perms db i.id gid) permAdmin = true

instance (gid : Nat) : Decidable (HasGroupAdmin db gid) :=
  inferInstanceAs (Decidable (∃ i ∈ db.identity, _ = true))

/-! ## 数えてから落とす -/

/-- 重なりのない列で二つ以上に当たる条件は、与えられた一つの外にも当たる。 -/
theorem exists_ne_of_one_lt_filter {α : Type} {l : List α} (hnd : l.Nodup) {p : α → Bool}
    (h : 1 < (l.filter p).length) (x : α) : ∃ y ∈ l, p y = true ∧ y ≠ x := by
  by_contra hno
  have hall : ∀ y ∈ l.filter p, y = x := by
    intro y hy
    obtain ⟨hy, hp⟩ := List.mem_filter.mp hy
    exact not_not.mp fun hne => hno ⟨y, hy, hp, hne⟩
  have hrep := List.eq_replicate_of_mem hall
  have hnd' : (l.filter p).Nodup := hnd.filter p
  rw [hrep, List.nodup_replicate] at hnd'
  omega

theorem exists_other_serviceAdmin (h : 1 < Bunker.serviceAdmins db) (target : Identity) :
    ∃ i ∈ db.identity, i.serviceAdmin = true ∧ i ≠ target := by
  have hnd : (listIdentities db).Nodup :=
    (perm_sortOn Identity.name _).nodup_iff.mpr db.identity.nodup
  obtain ⟨i, hi, hadm, hne⟩ := exists_ne_of_one_lt_filter hnd h target
  exact ⟨i, mem_sortOn.mp hi, hadm, hne⟩

variable {target : Identity} {gid : Nat}

/-- `target` の印を落としてよいなら、ほかにも service admin が居る。 -/
theorem HasServiceAdmin.other (h : HasServiceAdmin db)
    (hguard : target.serviceAdmin = true → 1 < Bunker.serviceAdmins db) :
    ∃ i ∈ db.identity, i.serviceAdmin = true ∧ i ≠ target := by
  cases hadm : target.serviceAdmin with
  | true => exact exists_other_serviceAdmin (hguard hadm) target
  | false =>
    obtain ⟨i, hi, ha⟩ := h
    refine ⟨i, hi, ha, ?_⟩
    rintro rfl
    rw [hadm] at ha
    cases ha

/-- ADMIN の行が二つ以上あれば、`target` のほかにも持ち主が居る。 -/
theorem exists_other_groupAdmin (h : 1 < adminCount db gid) (target : Identity) :
    ∃ i ∈ db.identity, hasBit (perms db i.id gid) permAdmin = true ∧ i.id ≠ target.id := by
  obtain ⟨a, ha, hp, hne⟩ := exists_ne_of_one_lt_filter db.groupAcl.nodup h
    ⟨target.id, gid, perms db target.id gid⟩
  rw [Bool.and_eq_true, beq_iff_eq] at hp
  obtain ⟨i, hi, hid⟩ := db.aclIdentity a ha
  have hid : i.id = a.identityId := hid
  have hperms : perms db i.id gid = a.perms := by
    rw [hid, ← hp.1]
    exact perms_of_mem ha
  refine ⟨i, hi, by rw [hperms]; exact hp.2, fun he => hne ?_⟩
  -- `target` の行は一つしか無い
  rw [← he, hperms, hid, ← hp.1]

/-! ## 枝ごとの番人 -/

theorem removeIdentity_guarded {name : String}
    (h : Bunker.removeIdentity prim inner amb db ident name = (.ok, db'))
    (ht : identityByName db name = some target) (hadm : target.serviceAdmin = true) :
    1 < Bunker.serviceAdmins db := by
  unfold Bunker.removeIdentity at h
  split at h
  · cases h
  · rw [ht] at h
    dsimp only at h
    split at h
    · cases h
    · next hguard =>
      rw [hadm, Bool.true_and, decide_eq_true_eq] at hguard
      omega

/-- admin を外せたなら、ほかにも admin がいた。 -/
theorem grant_guarded {group identity : String} {p : UInt8}
    (h : Bunker.grant prim inner amb db ident group identity p = (.ok, db'))
    (hauth : authorizeGroup db ident group permAdmin ident.serviceAdmin = some gid)
    (ht : identityByName db identity = some target)
    (hold : hasBit (perms db target.id gid) permAdmin = true) (hnew : hasBit p permAdmin = false) :
    1 < adminCount db gid := by
  unfold Bunker.grant at h
  rw [hauth] at h
  dsimp only at h
  split at h
  · cases h
  · rw [ht] at h
    dsimp only at h
    split at h
    · cases h
    · next hguard =>
      rw [hold, hnew, Bool.not_false, Bool.true_and, Bool.true_and, decide_eq_true_eq] at hguard
      omega

/-! ## 書き込みごとの保存 -/

theorem HasGroupAdmin.congr (h : HasGroupAdmin db gid) (hi : db'.identity = db.identity)
    (ha : db'.groupAcl = db.groupAcl) : HasGroupAdmin db' gid := by
  obtain ⟨i, him, hb⟩ := h
  refine ⟨i, hi ▸ him, ?_⟩
  unfold perms aclRow at hb ⊢
  rw [ha]
  exact hb

/-- ACL の一行の書き換え。ADMIN を落とすときは、ほかの持ち主が残る。 -/
theorem hasGroupAdmin_aclSet {g : Nat} {p : UInt8} (h : AclSet db db' target.id gid p)
    (hguard : hasBit (Store.perms db target.id gid) permAdmin = true → hasBit p permAdmin = false →
      1 < adminCount db gid) (hadm : HasGroupAdmin db g) : HasGroupAdmin db' g := by
  have hperms := h.perms
  obtain ⟨t, hi, hg, rfl, -⟩ := h
  obtain ⟨i, him, hb⟩ := hadm
  by_cases hit : i.id = target.id ∧ g = gid
  · obtain ⟨hid, rfl⟩ := hit
    cases hp : hasBit p permAdmin with
    | true =>
      refine ⟨i, him, ?_⟩
      rw [hperms, if_pos ⟨hid, rfl⟩]
      exact hp
    | false =>
      rw [hid] at hb
      obtain ⟨j, hj, hjb, hne⟩ := exists_other_groupAdmin (hguard hb hp) target
      refine ⟨j, hj, ?_⟩
      rw [hperms, if_neg fun hc => hne hc.1]
      exact hjb
  · refine ⟨i, him, ?_⟩
    rw [hperms, if_neg hit]
    exact hb

theorem hasGroupAdmin_createGroup {name : String} {wraps : List (String × Bytes)} {p : UInt8}
    (hp : p ≠ 0) (h : Store.createGroup db name wraps ident.id p = some db')
    (hadm : HasGroupAdmin db gid) : HasGroupAdmin db' gid := by
  obtain ⟨new, t, hg, mid, hnew, -, hadd, hset⟩ := createGroup_spec hp h
  obtain ⟨td, hd, tw, hw, rfl, -, -⟩ := hadd
  have hperms := hset.perms
  obtain ⟨ta, hi, hga, rfl, -⟩ := hset
  obtain ⟨i, him, hb⟩ := hadm
  -- ADMIN のある group は前から在るので、新しい id ではない
  have hne : gid ≠ new := by
    rintro rfl
    obtain ⟨a, ha, -, hag, -⟩ := hasBit_perms.mp hb
    obtain ⟨g, hgm, hgid⟩ := db.aclGroup a ha
    exact (hnew g hgm).1 (hgid.trans hag)
  refine ⟨i, him, ?_⟩
  rw [hperms, if_neg fun hc => hne hc.2]
  exact hb

theorem hasGroupAdmin_deleteIdentity (ht : target ∈ db.identity)
    (h : ∃ i ∈ db.identity, hasBit (perms db i.id gid) permAdmin = true ∧ i ≠ target) :
    HasGroupAdmin (db.deleteIdentity (·.name == target.name)) gid := by
  obtain ⟨i, hi, hb, hne⟩ := h
  have hn : (i.name == target.name) = false := by
    rw [beq_eq_false_iff_ne]
    exact fun he => hne (Table.eq_of_conflict hi ht (Or.inr (Or.inr he)))
  refine ⟨i, Table.mem_delete.mpr ⟨hi, hn⟩, ?_⟩
  unfold perms
  rw [aclRow_deleteIdentity hi hn]
  exact hb

theorem hasServiceAdmin_deleteIdentity (ht : target ∈ db.identity)
    (hguard : target.serviceAdmin = true → 1 < Bunker.serviceAdmins db) (h : HasServiceAdmin db) :
    HasServiceAdmin (db.deleteIdentity (·.name == target.name)) := by
  obtain ⟨i, hi, ha, hne⟩ := h.other hguard
  refine ⟨i, Table.mem_delete.mpr ⟨hi, ?_⟩, ha⟩
  rw [beq_eq_false_iff_ne]
  exact fun he => hne (Table.eq_of_conflict hi ht (Or.inr (Or.inr he)))

/-! ## 要求一つ -/

/-- どの要求の後にも、service admin が残る。 -/
theorem hasServiceAdmin_effect {req : Request} {resp : Response}
    (hout : Bunker.dispatchAs prim inner amb db ident req = (resp, db'))
    (h : Effect prim inner amb db ident req resp db') (hadm : HasServiceAdmin db) :
    HasServiceAdmin db' := by
  have hleaves := h.leaves
  unfold HasServiceAdmin at hadm ⊢
  cases h with
  | none _ => exact hadm
  | put | delete | createGroup | gainRead | loseRead | keepRead | rotateDek =>
    rw [hleaves.identity rfl]
    exact hadm
  | addIdentity _ _ added =>
    obtain ⟨_, t, _, -, -, -, rfl, hmem⟩ := addIdentity_spec added
    obtain ⟨i, hi, ha⟩ := hadm
    exact ⟨i, (hmem i).mpr (Or.inl hi), ha⟩
  | removeIdentity _ named rotated removed =>
    obtain ⟨ht, rfl⟩ := identityByName_eq_some.mp named
    rw [((removed_rotates rotated removed).deksOnly.logged _ _ _).identity]
    exact hasServiceAdmin_deleteIdentity ht (removeIdentity_guarded hout named) hadm
  | @setServiceAdmin name admin target _ named guarded =>
    -- 印を落とす相手が最後の一人なら、この枝には来ない
    obtain ⟨ht, rfl⟩ := identityByName_eq_some.mp named
    have hkeep : ∀ i ∈ db.identity, i.serviceAdmin = true → (i.name = target.name → admin = true) →
        ∃ j ∈ (db.setServiceAdmin target.name admin).identity, j.serviceAdmin = true := by
      intro i hi ha hsame
      refine ⟨_, mem_setServiceAdmin.mpr ⟨i, hi, rfl⟩, ?_⟩
      unfold Db.flagAdmin
      split
      · next hn => exact hsame hn
      · exact ha
    cases admin with
    | true =>
      obtain ⟨i, hi, ha⟩ := hadm
      exact hkeep i hi ha fun _ => rfl
    | false =>
      obtain ⟨i, hi, ha, hne⟩ := HasServiceAdmin.other hadm fun hta => guarded hta rfl
      exact hkeep i hi ha fun hn =>
        absurd (Table.eq_of_conflict hi ht (Or.inr (Or.inr hn))) hne

/-- 要求は、`gid` の唯一の ADMIN を消す RemoveIdentity である。 -/
def RemovesOnlyAdmin (db : Db) (gid : Nat) (req : Request) : Prop :=
  ∃ target ∈ db.identity, req = .removeIdentity target.name ∧
    ∀ i ∈ db.identity, hasBit (perms db i.id gid) permAdmin = true → i = target

/-- group の admin が絶えるのは、唯一の admin の identity を消すときだけである。 -/
theorem hasGroupAdmin_effect {req : Request} {resp : Response}
    (hout : Bunker.dispatchAs prim inner amb db ident req = (resp, db'))
    (h : Effect prim inner amb db ident req resp db') (hadm : HasGroupAdmin db gid) :
    HasGroupAdmin db' gid ∨ RemovesOnlyAdmin db gid req := by
  cases h with
  | none _ => exact Or.inl hadm
  | put _ _ _ stored =>
    obtain ⟨_, _, _, _, rfl⟩ := putSecret_only stored
    exact Or.inl (hadm.congr rfl rfl)
  | delete _ removed =>
    obtain ⟨_, _, _, _, rfl⟩ := deleteSecret_only removed
    exact Or.inl (hadm.congr rfl rfl)
  | createGroup _ _ _ created => exact Or.inl (hasGroupAdmin_createGroup (by decide) created hadm)
  | addIdentity _ _ added =>
    obtain ⟨_, t, _, -, -, -, rfl, hmem⟩ := addIdentity_spec added
    obtain ⟨i, hi, hb⟩ := hadm
    exact Or.inl ⟨i, (hmem i).mpr (Or.inl hi), hb⟩
  | @removeIdentity name target _ _ _ named rotated removed =>
    obtain ⟨ht, rfl⟩ := identityByName_eq_some.mp named
    have hdeks := (removed_rotates rotated removed).deksOnly
    by_cases hother : ∃ i ∈ db.identity, hasBit (perms db i.id gid) permAdmin = true ∧ i ≠ target
    · exact Or.inl ((hasGroupAdmin_deleteIdentity ht hother).congr (hdeks.logged _ _ _).identity
        (hdeks.logged _ _ _).groupAcl)
    · refine Or.inr ⟨target, ht, rfl, fun i him hb => ?_⟩
      exact not_not.mp fun hne => hother ⟨i, him, hb, hne⟩
  | setServiceAdmin _ _ _ =>
    obtain ⟨i, hi, hb⟩ := hadm
    refine Or.inl ⟨_, mem_setServiceAdmin.mpr ⟨i, hi, rfl⟩, ?_⟩
    rw [Db.flagAdmin_id]
    exact hb
  | gainRead auth named _ _ wrapped granted =>
    obtain ⟨mid, hset, hdeks⟩ := granted_acl wrapped granted
    exact Or.inl ((hasGroupAdmin_aclSet hset (grant_guarded hout auth named) hadm).congr
      hdeks.identity hdeks.groupAcl)
  | loseRead auth named _ _ _ revoked =>
    obtain ⟨mid, hset, hdeks⟩ := revoked_acl revoked
    exact Or.inl ((hasGroupAdmin_aclSet hset (grant_guarded hout auth named) hadm).congr
      (hdeks.logged _ _ _).identity (hdeks.logged _ _ _).groupAcl)
  | keepRead auth named _ set =>
    exact Or.inl (hasGroupAdmin_aclSet (aclSet_setPerms set) (grant_guarded hout auth named) hadm)
  | rotateDek _ _ added =>
    obtain ⟨-, _, _, _, _, rfl, -, -⟩ := dekAdded_addDek added
    exact Or.inl (hadm.congr rfl rfl)

theorem hasServiceAdmin_handle (remote : String) (req : Request) (hadm : HasServiceAdmin db) :
    HasServiceAdmin (Bunker.handle prim inner amb db remote req).db := by
  show HasServiceAdmin (Bunker.dispatch prim inner amb db remote req).2
  unfold Bunker.dispatch
  cases identityByEndpoint db remote with
  | none => exact hadm
  | some ident => exact hasServiceAdmin_effect rfl (effect_dispatchAs req) hadm

theorem hasGroupAdmin_handle (remote : String) (req : Request) (hadm : HasGroupAdmin db gid) :
    HasGroupAdmin (Bunker.handle prim inner amb db remote req).db gid ∨
      RemovesOnlyAdmin db gid req := by
  show HasGroupAdmin (Bunker.dispatch prim inner amb db remote req).2 gid ∨ _
  unfold Bunker.dispatch
  cases identityByEndpoint db remote with
  | none => exact Or.inl hadm
  | some ident => exact hasGroupAdmin_effect rfl (effect_dispatchAs req) hadm

/-! ## 操作の列 -/

theorem hasServiceAdmin_init {op backup endpoint name : String} {db₀ : Db}
    (h : Node.init op backup endpoint name = some db₀) : HasServiceAdmin db₀ := by
  unfold Node.init Store.init at h
  split at h
  · cases h
  · unfold Db.insertIdentity at h
    split at h
    · cases h
    · next t ht =>
      cases h
      exact ⟨_, (Table.mem_insert ht).mpr (Or.inr rfl), rfl⟩

/--
**protocol を通じた締め出しは起きない。** `init` からどの操作の列を経ても service admin が居る。
どの要求も、唯一の ADMIN を消す RemoveIdentity のほかは、group の ADMIN を絶やさない。
-/
theorem no_lockout {op backup endpoint name : String} {db₀ : Db}
    (hinit : Node.init op backup endpoint name = some db₀) (ops : List (Node.Op × Ambient)) :
    HasServiceAdmin (Node.exec prim db₀ ops) ∧
      ∀ (inner : Inner) (amb : Ambient) (remote : String) (req : Request) (gid : Nat),
        HasGroupAdmin (Node.exec prim db₀ ops) gid →
          HasGroupAdmin (Bunker.handle prim inner amb (Node.exec prim db₀ ops) remote req).db gid ∨
            RemovesOnlyAdmin (Node.exec prim db₀ ops) gid req := by
  refine ⟨?_, fun inner amb remote req gid => hasGroupAdmin_handle remote req⟩
  refine Node.exec_induction prim (hasServiceAdmin_init hinit) ?_ ops
  intro db op amb hadm
  rcases @step_cases prim db op amb with ⟨_, remote, req, inner, -, -, h⟩ | ⟨-, -, h⟩
  · rw [h]
    exact hasServiceAdmin_handle remote req hadm
  · unfold HasServiceAdmin
    rw [h]
    exact hadm

/-- 最後の ADMIN が自分の許可を READ だけにしようとしても、ADMIN は残る。 -/
theorem no_lockout_sample :
    HasServiceAdmin (Node.exec plain sampleDb sampleGranted) ∧
      HasGroupAdmin (Node.exec plain sampleDb sampleGranted) 1 ∧
      HasGroupAdmin (Bunker.handle plain sampleInner (sampleAmbient 9)
        (Node.exec plain sampleDb sampleGranted) (samplePeer 'a') (.grant "g" "admin" permRead)).db 1 := by
  have hadm : HasGroupAdmin (Node.exec plain sampleDb sampleGranted) 1 := by decide
  refine ⟨(no_lockout init_sampleDb sampleGranted).1, hadm, ?_⟩
  refine ((no_lockout init_sampleDb sampleGranted).2 _ _ _ _ 1 hadm).resolve_right ?_
  rintro ⟨_, -, h, -⟩
  cases h

end SecretBunker
