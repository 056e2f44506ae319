import SecretBunker.Node
import SecretBunker.Server.Statements

/-!
# 失敗した要求は何も変えない

どの文が故障しても、`Denied`、`VersionConflict`、`Failed` のいずれかで答えた要求は、
audit の一行のほかには何も残さない。書き込みはどの要求でも一つの文か一つの transaction に
収まっていて、それが確定した後には失敗の答えを返さないからである。

* `atomic_dispatch` — 文がどう失敗しても、拒んだ要求は database を変えない
* `rejected_changes_nothing` — 拒んだ要求が残すのは、audit の一行だけである
-/

namespace SecretBunker

open Relational Transaction

/-- 要求を退けた応答。 -/
def Response.Rejected : Response → Prop
  | .denied => True
  | .versionConflict _ => True
  | .failed _ => True
  | _ => False

instance : DecidablePred Response.Rejected
  | .denied | .versionConflict _ | .failed _ => isTrue trivial
  | .ok | .secret .. | .version _ | .names _ | .groups .. | .identities _ | .acl _
  | .identityNames _ | .readOnlyReplica _ => isFalse id

namespace Statements

variable {prim : Primitives} {inner : Inner} {amb : Ambient} {ident : Identity}

/-! ## 読む手続き -/

theorem readOnly_ensure (b : Bool) : ReadOnly (ensure b : Sql Db Unit).run := by
  cases b
  · exact .pure none
  · exact .pure (some ())

theorem readOnly_authorizeGroup (group : String) (needed : UInt8) (implicitAdmin : Bool) :
    ReadOnly (authorizeGroup ident group needed implicitAdmin).run := by
  refine ReadOnly.run_bind (.query _) fun groupId => ?_
  split
  · exact .pure _
  · exact ReadOnly.run_bind (.query _) fun perms =>
      ReadOnly.run_bind (readOnly_ensure _) fun _ => .pure _

theorem readOnly_respond {α : Type} (select : Db → α) (answer : α → Response) :
    ReadOnly (respond select answer) := by
  refine (ReadOnly.query _).bind fun r => ?_
  cases r <;> exact .pure _

theorem readOnly_readSecret (group name dekRecipient : String) (dekIdentity : AgeIdentity)
    (implicitAdmin : Bool) :
    ReadOnly (readSecret prim ident group name dekRecipient dekIdentity implicitAdmin) := by
  refine (readOnly_authorizeGroup _ _ _).bind fun r => ?_
  rcases r with _ | groupId
  · exact .pure _
  · refine (ReadOnly.query _).bind fun r => ?_
    rcases r with _ | sv
    · exact .pure _
    · refine (ReadOnly.query _).bind fun r => ?_
      cases r <;> exact .pure _

theorem readOnly_lastServiceAdmin : ReadOnly lastServiceAdmin := by
  refine (ReadOnly.query _).bind fun r => ?_
  cases r <;> exact .pure _

theorem readOnly_removalRotation (target : Identity) (g : Nat × Nat) :
    ReadOnly (removalRotation prim inner amb target g).run := by
  refine ReadOnly.run_bind (.query _) fun wraps => ReadOnly.run_bind ?_ fun name => .pure _
  exact (ReadOnly.query _).bind fun r => .pure (some r)

theorem readOnly_wrapsForNewReader (groupId : Nat) (endpointId : String) :
    ReadOnly (wrapsForNewReader prim inner amb groupId endpointId).run := by
  refine ReadOnly.run_bind (.pure _) fun recipient => ReadOnly.run_bind (.query _) fun versions => ?_
  exact ReadOnly.mapM (fun version => ReadOnly.run_bind (.query _) fun dek => .pure _) versions

theorem readOnly_removalScope (req : Request) : ReadOnly (removalScope req) := by
  cases req with
  | removeIdentity name =>
    refine (ReadOnly.query _).bind fun r => ?_
    rcases r with _ | target
    · exact .pure _
    · refine (ReadOnly.query _).bind fun r => ?_
      cases r <;> exact .pure _
  | _ => exact .pure _

/-! ## 書く手続き -/

/-- `ensure` に続く transaction も、失敗すれば何も変えない。 -/
theorem atomic_ensure {α : Type} {b : Bool} {x : Sql Db α} (hx : Atomic (· = none) x.run) :
    Atomic (· = none) (ensure b >>= fun _ => x).run :=
  .run_bind (readOnly_ensure b) fun _ => hx

theorem atomic_acknowledge {α : Type} {write : Sql Db α} {failure : Response}
    (hw : Atomic (· = none) write.run) : Atomic Response.Rejected (acknowledge write failure) := by
  refine hw.bind (fun r _ => ?_) fun r hr => ?_
  · cases r <;> exact .answer _
  · rcases r with _ | a
    · exact absurd rfl hr
    · exact .pure id

/-- compare-and-set の答えを応答にする。衝突は rollback で終わっている。 -/
theorem atomic_cas {write : Sql Db CasOutcome} {answer : Nat → Response}
    (hw : Atomic (fun r => ∀ o, r = some o → ¬ ∃ n, o = .applied n) write.run)
    (ha : ∀ n, ¬ (answer n).Rejected) :
    Atomic Response.Rejected (write.run >>= fun r =>
      match r with
      | some (.applied n) => pure (answer n)
      | some (.conflict current) => pure (.versionConflict current)
      | none => pure internalError) := by
  refine hw.bind (fun r _ => ?_) fun r hr => ?_
  · rcases r with _ | (n | current) <;> exact .answer _
  · rcases r with _ | (n | current)
    · exact absurd (fun o h => by cases h) hr
    · exact .pure (ha n)
    · refine absurd (fun o h => ?_) hr
      cases h
      rintro ⟨n, hn⟩
      cases hn

theorem returns_commitVersion (secretId current dekVersion : Nat) (nonce ciphertext : Bytes)
    (now : Int) (createdBy : String) :
    Returns (fun r => ∀ o, r = some (.commit o) → ∃ n, o = .applied n)
      (Tx.commitVersion secretId current dekVersion nonce ciphertext now createdBy).run := by
  have hnone : ∀ o : CasOutcome, (none : Option (Ending CasOutcome)) = some (.commit o) →
      ∃ n, o = .applied n := fun o h => by cases h
  refine Returns.run_bind hnone fun _ => Returns.run_bind hnone fun _ => ?_
  exact .pure fun o h => by cases h; exact ⟨_, rfl⟩

theorem atomic_putSecret (groupId : Nat) (name : String) (expected dekVersion : Nat)
    (nonce ciphertext : Bytes) (now : Int) (createdBy : String) :
    Atomic (fun r => ∀ o, r = some o → ¬ ∃ n, o = .applied n)
      (Tx.putSecret groupId name expected dekVersion nonce ciphertext now createdBy).run := by
  refine Atomic.transaction_of ?_
  refine Returns.run_bind (fun o h => by cases h) fun row => ?_
  rcases row with _ | s
  · dsimp only
    split
    · exact .pure fun o h => by cases h
    · exact Returns.run_bind (fun o h => by cases h) fun secretId => returns_commitVersion _ _ _ _ _ _ _
  · dsimp only
    split
    · exact .pure fun o h => by cases h
    · exact returns_commitVersion _ _ _ _ _ _ _

theorem atomic_deleteSecret (groupId : Nat) (name : String) (expected : Nat) :
    Atomic (fun r => ∀ o, r = some o → ¬ ∃ n, o = .applied n)
      (Tx.deleteSecret groupId name expected).run := by
  refine Atomic.transaction_of ?_
  refine Returns.run_bind (fun o h => by cases h) fun row => ?_
  rcases row with _ | s
  · exact .pure fun o h => by cases h
  · dsimp only
    split
    · exact .pure fun o h => by cases h
    · refine Returns.run_bind (fun o h => by cases h) fun _ => ?_
      exact .pure fun o h => by cases h; exact ⟨0, rfl⟩

theorem atomic_removeIdentityWithRotations (name : String) (rotations : List GroupRotation) :
    Atomic (fun r => ∀ b, r = some b → b ≠ true)
      (Tx.removeIdentityWithRotations name rotations).run := by
  rw [Tx.removeIdentityWithRotations, run_bind]
  refine Atomic.after (readOnly_ensure _) fun r => ?_
  rcases r with _ | _
  · exact .of_readOnly (.pure none)
  · refine Atomic.transaction_of ?_
    refine Returns.run_bind (fun o h => by cases h) fun removed => ?_
    split
    · exact .pure fun o h => by cases h
    · refine Returns.run_bind (fun o h => by cases h) fun _ => ?_
      exact .pure fun o h => by cases h; rfl

/-! ## 要求ごとの処理 -/

theorem atomic_put (group name : String) (value : Bytes) (e : UInt64) :
    Atomic Response.Rejected (put prim inner amb ident group name value e) := by
  refine .asked (readOnly_authorizeGroup _ _ _) (.pure _) fun groupId => ?_
  refine .asked (.query _) (.pure _) fun dekVersion => ?_
  refine .asked (.query _) (.pure _) fun wrappedOp => ?_
  refine .asked (.query _) (.pure _) fun version => ?_
  dsimp only
  split
  · exact .answer _
  split
  · exact .answer _
  split
  · exact .answer _
  · exact atomic_cas (atomic_putSecret _ _ _ _ _ _ _ _) fun _ => id

theorem atomic_delete (group name : String) (e : UInt64) :
    Atomic Response.Rejected (delete ident group name e) := by
  refine .asked (readOnly_authorizeGroup _ _ _) (.pure _) fun groupId => ?_
  exact atomic_cas (atomic_deleteSecret _ _ _) fun _ => id

theorem atomic_createGroup (name : String) :
    Atomic Response.Rejected (createGroup prim inner amb ident name) := by
  unfold createGroup
  split
  · exact .answer _
  refine Atomic.after (.query _) fun r => ?_
  rcases r with _ | _
  · dsimp only
    split
    · exact .answer _
    · exact atomic_acknowledge (atomic_ensure (.transaction _))
  · exact .answer _

theorem atomic_addIdentity (name endpointId : String) (serviceAdmin : Bool) :
    Atomic Response.Rejected (addIdentity prim ident name endpointId serviceAdmin) := by
  unfold addIdentity
  split
  · exact .answer _
  split
  · exact .answer _
  · exact atomic_acknowledge (.statement _)

theorem returns_auditRotations (endpointId : String) (groups : List String) :
    Returns (¬ Response.Rejected ·)
      (auditRotations prim amb endpointId groups >>= fun _ => (pure .ok : Script Db Response)) :=
  Returns.bind fun _ => .pure id

/-- 断られた identity の削除は、何も変えない。 -/
theorem atomic_removeIdentity (name : String) :
    Atomic Response.Rejected (removeIdentity prim inner amb ident name) := by
  unfold removeIdentity
  split
  · exact .answer _
  refine Atomic.after (.query _) fun r => ?_
  rcases r with _ | _ | target
  · exact .answer _
  · exact .answer _
  have hguard : ReadOnly (if target.serviceAdmin then lastServiceAdmin else pure false) := by
    split
    · exact readOnly_lastServiceAdmin
    · exact .pure _
  refine Atomic.after hguard fun last => ?_
  split
  · exact .answer _
  refine .asked (.query _) (.pure _) fun groupIds => ?_
  refine .asked (ReadOnly.mapM (readOnly_removalRotation target) _) (.pure _) fun rotations => ?_
  refine (atomic_removeIdentityWithRotations name _).bind (fun r hr => ?_) fun r hr => ?_
  · rcases r with _ | _ | _
    · exact .answer _
    · exact .answer _
    · exact absurd rfl (hr true rfl)
  · rcases r with _ | _ | _
    · exact absurd (fun b h => by cases h) hr
    · exact absurd (fun b h => by cases h; decide) hr
    · exact returns_auditRotations _ _

theorem atomic_setServiceAdmin (name : String) (serviceAdmin : Bool) :
    Atomic Response.Rejected (setServiceAdmin ident name serviceAdmin) := by
  unfold setServiceAdmin
  split
  · exact .answer _
  refine Atomic.after (.query _) fun r => ?_
  rcases r with _ | _ | target
  · exact .answer _
  · exact .answer _
  have hguard : ReadOnly
      (if target.serviceAdmin && !serviceAdmin then lastServiceAdmin else pure false) := by
    split
    · exact readOnly_lastServiceAdmin
    · exact .pure _
  refine Atomic.after hguard fun last => ?_
  split
  · exact .answer _
  · exact atomic_acknowledge (.statement _)

theorem atomic_applyGrant (current : UInt8) (groupId : Nat) (group : String) (target : Identity)
    (perms : UInt8) :
    Atomic Response.Rejected (applyGrant prim inner amb ident current groupId group target perms) := by
  unfold applyGrant
  split
  · refine .asked (readOnly_wrapsForNewReader _ _) (.pure _) fun wraps => ?_
    exact atomic_acknowledge (atomic_ensure (.transaction _))
  · refine .asked (.query _) (.pure _) fun newWraps => ?_
    have hrevoke : Atomic (· = none)
        (Tx.revokeReadAndRotate groupId target.id perms target.endpointId newWraps).run :=
      atomic_ensure (atomic_ensure (.transaction _))
    refine hrevoke.bind (fun r hr => ?_) fun r hr => ?_
    · rw [hr]
      exact .answer _
    · rcases r with _ | n
      · exact absurd rfl hr
      · exact returns_auditRotations _ _
  · exact atomic_acknowledge (.statement _)

theorem atomic_grant (group identity : String) (perms : UInt8) :
    Atomic Response.Rejected (grant prim inner amb ident group identity perms) := by
  refine .asked (readOnly_authorizeGroup _ _ _) (.pure _) fun groupId => ?_
  dsimp only
  split
  · exact .answer _
  refine Atomic.after (.query _) fun r => ?_
  rcases r with _ | _ | target
  · exact .answer _
  · exact .answer _
  refine .asked (.query _) (.pure _) fun current => ?_
  dsimp only
  split
  · refine .asked (.query _) (.pure _) fun admins => ?_
    dsimp only
    split
    · exact .answer _
    · exact atomic_applyGrant _ _ _ _ _
  · exact atomic_applyGrant _ _ _ _ _

theorem atomic_rotateDek (group : String) :
    Atomic Response.Rejected (rotateDek prim inner amb ident group) := by
  refine .asked (readOnly_authorizeGroup _ _ _) (.pure _) fun groupId => ?_
  refine .asked (.query _) (.pure _) fun wraps => ?_
  exact atomic_acknowledge (atomic_ensure (.transaction _))

/-- 認可の後に一つ読んで答える要求は、何も書かない。 -/
theorem readOnly_authorized {α : Type} {group : String} {needed : UInt8} {implicitAdmin : Bool}
    {select : Nat → Db → α} {answer : Nat → α → Response} :
    ReadOnly ((authorizeGroup ident group needed implicitAdmin).run >>= fun r =>
      match r with
      | none => pure .denied
      | some groupId => respond (select groupId) (answer groupId)) := by
  refine (readOnly_authorizeGroup _ _ _).bind fun r => ?_
  rcases r with _ | groupId
  · exact .pure _
  · exact readOnly_respond _ _

/-- 断られた要求は、何も変えない。 -/
theorem atomic_dispatchAs (req : Request) :
    Atomic Response.Rejected (dispatchAs prim inner amb ident req) := by
  cases req with
  | get group name => exact .of_readOnly (readOnly_readSecret _ _ _ _ _)
  | put group name value e => exact atomic_put _ _ _ _
  | delete group name e => exact atomic_delete _ _ _
  | list group => exact .of_readOnly readOnly_authorized
  | createGroup name => exact atomic_createGroup name
  | addIdentity name e admin => exact atomic_addIdentity _ _ _
  | removeIdentity name => exact atomic_removeIdentity name
  | listIdentities =>
    refine .of_readOnly ?_
    show ReadOnly (listIdentities ident)
    unfold listIdentities
    split
    · exact .pure _
    · exact readOnly_respond _ _
  | grant group identity perms => exact atomic_grant _ _ _
  | rotateDek group => exact atomic_rotateDek group
  | listGroups =>
    refine .of_readOnly ?_
    show ReadOnly (listGroups ident)
    unfold listGroups
    split <;> exact readOnly_respond _ _
  | groupAcl group => exact .of_readOnly readOnly_authorized
  | listIdentityNames group => exact .of_readOnly readOnly_authorized
  | setServiceAdmin name admin => exact atomic_setServiceAdmin _ _

/-- どの文が失敗しても、拒んだ要求は database を変えない。 -/
theorem atomic_dispatch (remote : String) (req : Request) :
    Atomic Response.Rejected (dispatch prim inner amb remote req) := by
  refine .asked (.query _) (.pure _) fun ident => ?_
  exact atomic_dispatchAs req

/-- audit は一行足すか、何もしない。 -/
theorem audit_cases (now : Int) (endpointId op target outcome : String) (c : Conn Db) :
    ((Tx.audit prim now endpointId op target outcome).run c).2.data = c.data ∨
      ∃ row : AuditRow, row.endpointId = endpointId ∧ row.op = op ∧ row.target = target ∧
        row.outcome = outcome ∧ ((Tx.audit prim now endpointId op target outcome).run c).2.data =
          c.data.withAudit (c.data.auditLog ++ [row]) := by
  have hquery := ReadOnly.query
    (fun db : Db => some ((db.auditLog.getLast?.map (·.hash)).getD (List.replicate 32 0))) c
  rw [Tx.audit, run_bind, bind_apply]
  generalize (Transaction.query _).run c = r at hquery ⊢
  obtain ⟨_ | prev, c₁⟩ := r
  · exact Or.inl hquery
  · obtain ⟨data, faults⟩ := c₁
    obtain rfl : data = c.data := hquery
    rcases statement_cases (fun db : Db => (some (db.withAudit (db.auditLog ++
      [⟨now, endpointId, op, target, outcome, prev,
        Store.auditHash prim prev now endpointId op target outcome⟩]))).map fun s => ((), s))
      ⟨c.data, faults⟩ with ⟨a, db', hdb, hrun⟩ | hrun
    · refine Or.inr ⟨⟨now, endpointId, op, target, outcome, prev,
        Store.auditHash prim prev now endpointId op target outcome⟩, rfl, rfl, rfl, rfl,
        (congrArg (fun r => r.2.data) hrun).trans ?_⟩
      exact (congrArg Prod.snd (Option.some.inj hdb)).symm
    · exact Or.inl (congrArg (fun r => r.2.data) hrun)

/--
**失敗した要求は何も変えない。**

どの文が故障しても、要求が `Denied`、`VersionConflict`、`Failed` で答えられたなら、`audit_log`
のほかの表は前のままである。`audit_log` に増えるのは、この要求の一行だけである。
-/
theorem rejected_changes_nothing {remote : String} {req : Request} {c c' : Conn Db}
    {out : Response × List String} (h : handle prim inner amb remote req c = (out, c'))
    (hreject : out.1.Rejected) :
    c'.data.metadata = c.data.metadata ∧ c'.data.identity = c.data.identity ∧
      c'.data.secretGroup = c.data.secretGroup ∧ c'.data.groupAcl = c.data.groupAcl ∧
      c'.data.groupDek = c.data.groupDek ∧ c'.data.dekWrap = c.data.dekWrap ∧
      c'.data.secret = c.data.secret ∧ c'.data.secretVersion = c.data.secretVersion ∧
      (c'.data.auditLog = c.data.auditLog ∨
        ∃ row : AuditRow, row.endpointId = remote ∧ row.op = req.op ∧ row.target = req.target ∧
          row.outcome = auditOutcome out.1 ∧ c'.data.auditLog = c.data.auditLog ++ [row]) := by
  have hscope := readOnly_removalScope req c
  generalize hd : dispatch prim inner amb remote req (removalScope req c).2 = d
  have hhandle : handle prim inner amb remote req c =
      ((d.1, if auditOutcome d.1 = "ok" then Bunker.touchedGroups req (removalScope req c).1 else []),
      ((Tx.audit prim amb.now remote req.op req.target (auditOutcome d.1)).run d.2).2) := by
    rw [← hd]
    rfl
  obtain ⟨rfl, rfl⟩ := Prod.mk.inj (hhandle.symm.trans h)
  -- 拒んだのなら、audit の前までは何も変わっていない
  have hsame : d.2.data = c.data := by
    have hdispatch := @atomic_dispatch prim inner amb remote req (removalScope req c).2
    rw [hd] at hdispatch
    exact (hdispatch hreject).trans hscope
  rcases @audit_cases prim amb.now remote req.op req.target (auditOutcome d.1) d.2 with
    ha | ⟨row, h₁, h₂, h₃, h₄, ha⟩
  · rw [ha, hsame]
    exact ⟨rfl, rfl, rfl, rfl, rfl, rfl, rfl, rfl, Or.inl rfl⟩
  · rw [ha, hsame]
    exact ⟨rfl, rfl, rfl, rfl, rfl, rfl, rfl, rfl, Or.inr ⟨row, h₁, h₂, h₃, h₄, rfl⟩⟩

/-- 十番目の文、`create_group` の COMMIT が故障する接続。 -/
def sampleFaulty : Conn Db := ⟨sampleDb, List.replicate 9 false ++ [true]⟩

theorem rejected_changes_nothing_sample :
    ∃ out c', handle plain sampleInner (sampleAmbient 1) (samplePeer 'a') (.createGroup "g")
        sampleFaulty = (out, c') ∧ out.1.Rejected ∧
      c'.data.secretGroup = sampleFaulty.data.secretGroup := by
  have hreject : (handle plain sampleInner (sampleAmbient 1) (samplePeer 'a') (.createGroup "g")
      sampleFaulty).1.1.Rejected := by decide +kernel
  generalize h : handle plain sampleInner (sampleAmbient 1) (samplePeer 'a') (.createGroup "g")
    sampleFaulty = r at hreject
  exact ⟨r.1, r.2, rfl, hreject, (rejected_changes_nothing h hreject).2.2.1⟩

end Statements

end SecretBunker
