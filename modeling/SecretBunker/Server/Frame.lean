import SecretBunker.Keys.Invariant

/-!
# 書き込みの触れない表

権威 node の書き込みのそれぞれが、どの表に触れないか。要求の性質は、ここから表ごとに読み取る。
-/

namespace SecretBunker

open Relational Store

variable {prim : Primitives} {db db' : Db} {inner : Inner} {amb : Ambient} {ident : Identity}

/-- secret の二つの表が同じ。 -/
def SameSecrets (db db' : Db) : Prop := db'.secret = db.secret ∧ db'.secretVersion = db.secretVersion

theorem SameSecrets.trans {db'' : Db} (h : SameSecrets db db') (h' : SameSecrets db' db'') :
    SameSecrets db db'' := ⟨h'.1.trans h.1, h'.2.trans h.2⟩

/-- ACL と鍵と audit の表のほかは同じ。 -/
structure KeysOnly (db db' : Db) : Prop where
  identity : db'.identity = db.identity
  secretGroup : db'.secretGroup = db.secretGroup
  secrets : SameSecrets db db'
  metadata : db'.metadata = db.metadata

/-- ACL も同じで、動いたのは鍵と audit だけである。 -/
structure DeksOnly (db db' : Db) : Prop extends KeysOnly db db' where
  groupAcl : db'.groupAcl = db.groupAcl

theorem KeysOnly.trans {db'' : Db} (h : KeysOnly db db') (h' : KeysOnly db' db'') :
    KeysOnly db db'' :=
  ⟨h'.1.trans h.1, h'.2.trans h.2, h.3.trans h'.3, h'.4.trans h.4⟩

theorem deksOnly_of_rows {td : Table DekRow} {tw : Table WrapRow} {hd hw}
    (h : db' = (db.withDeks td hd).withWraps tw hw) : DeksOnly db db' := by
  subst h
  exact ⟨⟨rfl, rfl, ⟨rfl, rfl⟩, rfl⟩, rfl⟩

theorem DeksOnly.logged (h : DeksOnly db db') (now : Int) (e : String) (groups : List String) :
    DeksOnly db (Bunker.auditRotations prim db' now e groups) := by
  obtain ⟨log, hlog⟩ := @auditRotations_only prim db' now e groups
  rw [hlog]
  exact ⟨⟨h.identity, h.secretGroup, h.secrets, h.metadata⟩, h.groupAcl⟩

variable {iid gid : Nat} {p : UInt8}

theorem Store.AclSet.keysOnly (h : AclSet db db' iid gid p) : KeysOnly db db' := by
  obtain ⟨_, _, _, rfl, _⟩ := h
  exact ⟨rfl, rfl, ⟨rfl, rfl⟩, rfl⟩

theorem Store.DekAdded.deksOnly {v : Nat} {wraps : List (String × Bytes)}
    (h : DekAdded db db' gid v wraps) : DeksOnly db db' := by
  obtain ⟨_, _, _, _, hdb, -⟩ := h
  exact deksOnly_of_rows hdb

theorem Store.RotatedAll.deksOnly {rotations : List GroupRotation}
    (h : RotatedAll db db' rotations) : DeksOnly db db' := by
  obtain ⟨_, _, _, _, hdb, -⟩ := h
  exact deksOnly_of_rows hdb

/-- READ を与える書き込みは、ACL の一行を書いてから wrap を足す。 -/
theorem granted_acl {op : AgeIdentity} {seed : Nat → String → Bytes} {e : String}
    {wraps : List (Nat × Bytes)}
    (hwraps : Bunker.wrapsForNewReader prim op seed db gid e = some wraps)
    (h : grantWithWraps db iid gid p wraps e = some db') :
    ∃ mid, AclSet db mid iid gid p ∧ DeksOnly mid db' := by
  obtain ⟨mid, t, hw, hset, rfl, -⟩ := granted_spec hwraps h
  exact ⟨mid, hset, ⟨rfl, rfl, ⟨rfl, rfl⟩, rfl⟩, rfl⟩

/-- READ を外す書き込みは、ACL の一行を書いてから DEK を回す。 -/
theorem revoked_acl {n : Nat} {r : String} {wraps : List (String × Bytes)}
    (h : revokeReadAndRotate db gid iid p r wraps = some (n, db')) :
    ∃ mid, AclSet db mid iid gid p ∧ DeksOnly mid db' := by
  obtain ⟨mid, hset, -, _, _, _, _, hdb, -⟩ := revokeReadAndRotate_spec h
  exact ⟨mid, hset, deksOnly_of_rows hdb⟩

theorem KeysOnly.of_acl (h : ∃ mid, AclSet db mid iid gid p ∧ DeksOnly mid db') :
    KeysOnly db db' := by
  obtain ⟨mid, hset, hdeks⟩ := h
  exact hset.keysOnly.trans hdeks.toKeysOnly

/-! ## 要求 -/

namespace Request

/-- secret の表に触れる要求。 -/
def writesSecret : Request → Bool
  | .put .. | .delete .. => true
  | _ => false

/-- identity の表に触れる要求。 -/
def writesIdentity : Request → Bool
  | .addIdentity .. | .removeIdentity .. | .setServiceAdmin .. => true
  | _ => false

/-- group の表に触れる要求。 -/
def createsGroup : Request → Bool
  | .createGroup .. => true
  | _ => false

end Request

/-- 要求 `req` の触れない表。 -/
structure Leaves (req : Request) (db db' : Db) : Prop where
  metadata : db'.metadata = db.metadata
  secrets : req.writesSecret = false → SameSecrets db db'
  identity : req.writesIdentity = false → db'.identity = db.identity
  secretGroup : req.createsGroup = false → db'.secretGroup = db.secretGroup

theorem KeysOnly.leaves (h : KeysOnly db db') (req : Request) : Leaves req db db' :=
  ⟨h.metadata, fun _ => h.secrets, fun _ => h.identity, fun _ => h.secretGroup⟩

theorem Leaves.of_deleted {name : String} (h : KeysOnly (db.deleteIdentity (·.name == name)) db') :
    Leaves (.removeIdentity name) db db' :=
  ⟨h.metadata, fun _ => h.secrets, (nomatch ·), fun _ => h.secretGroup⟩

/-- どの要求も、自分の書く表のほかを残す。 -/
theorem Effect.leaves {req : Request} {resp : Response}
    (h : Effect prim inner amb db ident req resp db') : Leaves req db db' := by
  cases h with
  | none _ => exact ⟨rfl, fun _ => ⟨rfl, rfl⟩, fun _ => rfl, fun _ => rfl⟩
  | put _ _ _ stored =>
    obtain ⟨_, _, _, _, rfl⟩ := putSecret_only stored
    exact ⟨rfl, (nomatch ·), fun _ => rfl, fun _ => rfl⟩
  | delete _ removed =>
    obtain ⟨_, _, _, _, rfl⟩ := deleteSecret_only removed
    exact ⟨rfl, (nomatch ·), fun _ => rfl, fun _ => rfl⟩
  | createGroup _ _ _ created =>
    obtain ⟨_, _, _, _, -, -, hadd, hset⟩ := createGroup_spec (by decide) created
    have hkeys := hadd.deksOnly.toKeysOnly.trans hset.keysOnly
    exact ⟨hkeys.metadata, fun _ => hkeys.secrets, fun _ => hkeys.identity,
      (nomatch ·)⟩
  | addIdentity _ _ added =>
    obtain ⟨_, _, _, -, -, -, rfl, -⟩ := addIdentity_spec added
    exact ⟨rfl, fun _ => ⟨rfl, rfl⟩, (nomatch ·), fun _ => rfl⟩
  | removeIdentity _ _ rotated removed =>
    exact .of_deleted ((removed_rotates rotated removed).deksOnly.logged _ _ _).toKeysOnly
  | setServiceAdmin _ _ _ =>
    exact ⟨rfl, fun _ => ⟨rfl, rfl⟩, (nomatch ·), fun _ => rfl⟩
  | gainRead _ _ _ _ wrapped granted => exact (KeysOnly.of_acl (granted_acl wrapped granted)).leaves _
  | loseRead _ _ _ _ _ revoked =>
    obtain ⟨mid, hset, hdeks⟩ := revoked_acl revoked
    exact (hset.keysOnly.trans (hdeks.logged _ _ _).toKeysOnly).leaves _
  | keepRead _ _ _ set => exact (aclSet_setPerms set).keysOnly.leaves _
  | rotateDek _ _ added => exact (dekAdded_addDek added).2.deksOnly.toKeysOnly.leaves _

theorem leaves_handle (remote : String) (req : Request) :
    Leaves req db (Bunker.handle prim inner amb db remote req).db := by
  have h : Leaves req db (Bunker.dispatch prim inner amb db remote req).2 := by
    rcases @dispatch_cases prim inner amb db remote req with ⟨-, h⟩ | ⟨ident, -, h⟩
    · rw [h]
      exact ⟨rfl, fun _ => ⟨rfl, rfl⟩, fun _ => rfl, fun _ => rfl⟩
    · exact h.leaves
  exact ⟨h.metadata, h.secrets, h.identity, h.secretGroup⟩

theorem LocalEffect.keysOnly (h : LocalEffect prim amb db db') : KeysOnly db db' := by
  cases h with
  | gainRead _ _ _ wrapped granted =>
    have hkeys := KeysOnly.of_acl (granted_acl wrapped granted)
    exact ⟨hkeys.1, hkeys.2, hkeys.3, hkeys.4⟩
  | loseRead _ _ _ _ _ _ revoked =>
    have hkeys := KeysOnly.of_acl (revoked_acl revoked)
    exact ⟨hkeys.1, hkeys.2, hkeys.3, hkeys.4⟩
  | keepRead _ _ set =>
    have hkeys := (aclSet_setPerms set).keysOnly
    exact ⟨hkeys.1, hkeys.2, hkeys.3, hkeys.4⟩

/-! ## 操作 -/

/-- 一歩は、開いた bunker の要求か、secret にも identity にも触れない操作である。 -/
theorem step_cases (db : Db) (op : Node.Op) (amb : Ambient) :
    (∃ key remote req inner, op = .handle key remote req ∧ Bunker.new prim db key = some inner ∧
      Node.step prim db op amb = (some (Bunker.handle prim inner amb db remote req).response,
        (Bunker.handle prim inner amb db remote req).db)) ∨
    ((Node.step prim db op amb).1 = none ∧ SameSecrets db (Node.step prim db op amb).2 ∧
      (Node.step prim db op amb).2.identity = db.identity) := by
  have hopen : SameSecrets db (openDb db) ∧ (openDb db).identity = db.identity := by
    obtain ⟨t, ht, -⟩ := openDb_spec db
    rw [ht]
    exact ⟨⟨rfl, rfl⟩, rfl⟩
  cases op with
  | handle key remote req =>
    unfold Node.step
    dsimp only
    cases hnew : Bunker.new prim db key with
    | none => exact Or.inr ⟨rfl, ⟨rfl, rfl⟩, rfl⟩
    | some inner => exact Or.inl ⟨key, remote, req, inner, rfl, hnew, rfl⟩
  | dbGrant group identity perms key =>
    refine Or.inr ⟨rfl, ?_⟩
    unfold Node.step
    dsimp only
    cases h : Node.dbGrant prim amb (openDb db) group identity perms key with
    | none => exact hopen
    | some db' =>
      have hkeys := (localEffect_dbGrant h).keysOnly
      exact ⟨hopen.1.trans hkeys.secrets, hkeys.identity.trans hopen.2⟩
  | recover backup pubkey =>
    refine Or.inr ⟨rfl, ?_⟩
    unfold Node.step
    dsimp only
    cases h : Node.recover prim amb (openDb db) backup pubkey with
    | none => exact hopen
    | some db' =>
      obtain ⟨_, _, -, ⟨_, _, rfl, -⟩, -⟩ := recover_spec h
      exact hopen
  | reopen => exact Or.inr ⟨rfl, hopen⟩

end SecretBunker
