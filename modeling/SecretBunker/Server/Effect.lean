import SecretBunker.Node
import SecretBunker.Store.Keys
import SecretBunker.Store.Secrets

/-!
# 操作の効果

`Bunker.dispatch` と `db grant` の枝をここで一度だけ数え上げる。操作は database を変えないか、
成功の応答とともに store の書き込みを一つだけ行う。以後の証明は枝を開かず、この場合分けを使う。
-/

namespace SecretBunker

open Relational Store

/-- 読むだけの要求。 -/
def Request.isQuery : Request → Bool
  | get .. | list .. | listIdentities | listGroups | groupAcl .. | listIdentityNames .. => true
  | _ => false

variable {prim : Primitives} {inner : Inner} {amb : Ambient} {db : Db} {ident : Identity}

/-- rotation の記録は audit を伸ばすだけである。 -/
theorem auditRotations_only (db : Db) (now : Int) (e : String) (groups : List String) :
    ∃ log, Bunker.auditRotations prim db now e groups = db.withAudit log := by
  unfold Bunker.auditRotations
  induction groups generalizing db with
  | nil => exact ⟨db.auditLog, rfl⟩
  | cons g rest ih => exact ih (Store.audit db prim now e "rotate-dek" g "ok")

theorem groupId_of_authorizeGroup {group : String} {needed : UInt8} {implicitAdmin : Bool}
    {gid : Nat} (h : authorizeGroup db ident group needed implicitAdmin = some gid) :
    groupId db group = some gid := by
  unfold authorizeGroup at h
  obtain ⟨gid', hg, h⟩ := Option.bind_eq_some_iff.mp h
  split at h
  · rw [hg, h]
  · split at h
    · rw [hg, h]
    · cases h

/-- 登録された identity の要求が database にすること。 -/
inductive Effect (prim : Primitives) (inner : Inner) (amb : Ambient) (db : Db) (ident : Identity) :
    Request → Response → Db → Prop
  /-- 読み取り、または拒まれた要求は何も変えない。 -/
  | none {req : Request} {resp : Response}
      (quiet : req.isQuery = true ∨ auditOutcome resp ≠ "ok") : Effect prim inner amb db ident req resp db
  | put {group name : String} {value : Bytes} {e : UInt64} {gid dv n : Nat} {dek : Dek} {db' : Db}
      (auth : authorizeGroup db ident group permWrite ident.serviceAdmin = some gid)
      (version : currentDekVersion db gid = some dv)
      (unwrapped : Bunker.unwrapOperational prim inner.opIdentity db gid dv = some dek)
      (stored : putSecret db gid name e.toNat dv amb.nonce.bytes
        (prim.aeadEncrypt dek amb.nonce (secretAad group name (e.toNat + 1) dv) value)
        amb.now ident.name = some (.applied n, db')) :
      Effect prim inner amb db ident (.put group name value e) (.version n) db'
  | delete {group name : String} {e : UInt64} {gid n : Nat} {db' : Db}
      (auth : authorizeGroup db ident group permWrite ident.serviceAdmin = some gid)
      (removed : deleteSecret db gid name e.toNat = (.applied n, db')) :
      Effect prim inner amb db ident (.delete group name e) .ok db'
  | createGroup {name : String} {creator : String × Bytes} {db' : Db}
      (admin : ident.serviceAdmin = true) (fresh : groupId db name = .none)
      (wrapped : Bunker.wrapForReader prim (amb.seed 0 0) (amb.dek 0) ident.endpointId = some creator)
      (created : Store.createGroup db name
        (Bunker.baseWraps prim inner.opRecipient inner.backupRecipient (amb.seed 0 0) (amb.dek 0)
          ++ [creator]) ident.id (permRead ||| permWrite ||| permAdmin) = some db') :
      Effect prim inner amb db ident (.createGroup name) .ok db'
  | addIdentity {name e : String} {serviceAdmin : Bool} {parsed : EndpointId} {db' : Db}
      (admin : ident.serviceAdmin = true) (valid : prim.parseEndpointId e = some parsed)
      (added : Store.addIdentity db name parsed.text serviceAdmin = some db') :
      Effect prim inner amb db ident (.addIdentity name e serviceAdmin) .ok db'
  | removeIdentity {name : String} {target : Identity} {rotations : List GroupRotation} {db' : Db}
      (admin : ident.serviceAdmin = true) (named : identityByName db name = some target)
      (rotated : Bunker.removalRotations prim inner amb db target = some rotations)
      (removed : removeIdentityWithRotations db name rotations = some (true, db')) :
      Effect prim inner amb db ident (.removeIdentity name) .ok
        (Bunker.auditRotations prim db' amb.now ident.endpointId
          ((groupsWithRead db target.id).filterMap (groupName db)))
  | setServiceAdmin {name : String} {serviceAdmin : Bool} {target : Identity}
      (admin : ident.serviceAdmin = true) (named : identityByName db name = some target)
      (guarded : target.serviceAdmin = true → serviceAdmin = false → 1 < Bunker.serviceAdmins db) :
      Effect prim inner amb db ident (.setServiceAdmin name serviceAdmin) .ok
        (db.setServiceAdmin name serviceAdmin)
  | gainRead {group identity : String} {p : UInt8} {gid : Nat} {target : Identity}
      {wraps : List (Nat × Bytes)} {db' : Db}
      (auth : authorizeGroup db ident group permAdmin ident.serviceAdmin = some gid)
      (named : identityByName db identity = some target)
      (before : hasBit (perms db target.id gid) permRead = false) (after : hasBit p permRead = true)
      (wrapped : Bunker.wrapsForNewReader prim inner.opIdentity (amb.seed 0) db gid
        target.endpointId = some wraps)
      (granted : grantWithWraps db target.id gid p wraps target.endpointId = some db') :
      Effect prim inner amb db ident (.grant group identity p) .ok db'
  | loseRead {group identity : String} {p : UInt8} {gid n : Nat} {target : Identity}
      {wraps : List (String × Bytes)} {db' : Db}
      (auth : authorizeGroup db ident group permAdmin ident.serviceAdmin = some gid)
      (named : identityByName db identity = some target)
      (before : hasBit (perms db target.id gid) permRead = true) (after : hasBit p permRead = false)
      (wrapped : Bunker.wrapSetForGroup prim inner.opRecipient inner.backupRecipient (amb.seed 0 0)
        db gid (amb.dek 0) (some target.endpointId) = some wraps)
      (revoked : revokeReadAndRotate db gid target.id p target.endpointId wraps = some (n, db')) :
      Effect prim inner amb db ident (.grant group identity p) .ok
        (Bunker.auditRotations prim db' amb.now ident.endpointId [group])
  | keepRead {group identity : String} {p : UInt8} {gid : Nat} {target : Identity} {db' : Db}
      (auth : authorizeGroup db ident group permAdmin ident.serviceAdmin = some gid)
      (named : identityByName db identity = some target)
      (same : hasBit p permRead = hasBit (perms db target.id gid) permRead)
      (set : setPerms db target.id gid p = some db') :
      Effect prim inner amb db ident (.grant group identity p) .ok db'
  | rotateDek {group : String} {gid n : Nat} {wraps : List (String × Bytes)} {db' : Db}
      (auth : authorizeGroup db ident group permAdmin ident.serviceAdmin = some gid)
      (wrapped : Bunker.wrapSetForGroup prim inner.opRecipient inner.backupRecipient (amb.seed 0 0)
        db gid (amb.dek 0) .none = some wraps)
      (added : addDek db gid wraps = some (n, db')) :
      Effect prim inner amb db ident (.rotateDek group) .ok db'

/-! ## 枝の数え上げ -/

/-- 失敗の応答で終わる枝。 -/
theorem Effect.denied {req : Request} : Effect prim inner amb db ident req .denied db :=
  .none (Or.inr (by decide))

theorem Effect.failed {req : Request} {reason : String} :
    Effect prim inner amb db ident req (.failed reason) db :=
  .none (Or.inr (show "failed" ≠ "ok" by decide))

theorem Effect.conflict {req : Request} {current : Nat} :
    Effect prim inner amb db ident req (.versionConflict current) db :=
  .none (Or.inr (show "conflict" ≠ "ok" by decide))

/-- 失敗の応答なら、database は変わっていない。 -/
theorem Effect.unchanged {req : Request} {resp : Response} {db' : Db}
    (h : Effect prim inner amb db ident req resp db') (hfail : auditOutcome resp ≠ "ok") :
    db' = db := by
  cases h with
  | none _ => rfl
  | put | delete | createGroup | addIdentity | removeIdentity | setServiceAdmin | gainRead
    | loseRead | keepRead | rotateDek => exact absurd rfl hfail

/-- Put の効果。 -/
theorem effect_put (group name : String) (value : Bytes) (e : UInt64) :
    Effect prim inner amb db ident (.put group name value e)
      (Bunker.put prim inner amb db ident group name value e).1
      (Bunker.put prim inner amb db ident group name value e).2 := by
  unfold Bunker.put
  split
  · exact .denied
  · next gid hauth =>
    split
    · exact .failed
    · next dv hdv =>
      split
      · exact .failed
      · next wrapped hwrapped =>
        dsimp only
        split
        · exact .conflict
        split
        · exact .conflict
        split
        · exact .failed
        · next dek hdek =>
          split
          · next h =>
            refine .put hauth hdv ?_ h
            rw [Bunker.unwrapOperational, hwrapped, Option.bind_some, hdek]
          · next h =>
            rw [(putSecret_conflict h).1]
            exact .conflict
          · exact .failed

theorem effect_delete (group name : String) (e : UInt64) :
    Effect prim inner amb db ident (.delete group name e)
      (Bunker.delete db ident group name e).1 (Bunker.delete db ident group name e).2 := by
  unfold Bunker.delete
  split
  · exact .denied
  · next gid hauth =>
    split
    · next h => exact .delete hauth h
    · next h =>
      rw [(deleteSecret_conflict h).1]
      exact .conflict

theorem effect_createGroup (name : String) :
    Effect prim inner amb db ident (.createGroup name)
      (Bunker.createGroup prim inner amb db ident name).1
      (Bunker.createGroup prim inner amb db ident name).2 := by
  unfold Bunker.createGroup
  split
  · exact .denied
  · next hadmin =>
    split
    · exact .failed
    · next hfresh =>
      split
      · exact .failed
      · next creator hcreator =>
        split
        · exact .failed
        · next h => exact .createGroup (by simpa using hadmin) (by simpa using hfresh) hcreator h

theorem effect_addIdentity (name e : String) (admin : Bool) :
    Effect prim inner amb db ident (.addIdentity name e admin)
      (Bunker.addIdentity prim db ident name e admin).1
      (Bunker.addIdentity prim db ident name e admin).2 := by
  unfold Bunker.addIdentity
  split
  · exact .denied
  · next hadmin =>
    split
    · exact .failed
    · next parsed hparsed =>
      split
      · exact .failed
      · next h => exact .addIdentity (by simpa using hadmin) hparsed h

/-- RemoveIdentity の効果。 -/
theorem effect_removeIdentity (name : String) :
    Effect prim inner amb db ident (.removeIdentity name)
      (Bunker.removeIdentity prim inner amb db ident name).1
      (Bunker.removeIdentity prim inner amb db ident name).2 := by
  unfold Bunker.removeIdentity
  split
  · exact .denied
  · next hadmin =>
    split
    · exact .failed
    · next target htarget =>
      split
      · exact .failed
      · split
        · exact .failed
        · next rotations hrots =>
          dsimp only
          split
          · next h => exact .removeIdentity (by simpa using hadmin) htarget hrots h
          · next fin h =>
            -- 名前は引けているので、この枝には来ない
            unfold removeIdentityWithRotations at h
            split at h
            · cases h
            · rw [htarget] at h
              simp only [Option.isNone_some, Bool.false_eq_true, if_false] at h
              obtain ⟨_, _, h⟩ := Option.bind_eq_some_iff.mp h
              cases h
          · exact .failed

theorem effect_setServiceAdmin (name : String) (admin : Bool) :
    Effect prim inner amb db ident (.setServiceAdmin name admin)
      (Bunker.setServiceAdmin db ident name admin).1
      (Bunker.setServiceAdmin db ident name admin).2 := by
  unfold Bunker.setServiceAdmin
  split
  · exact .denied
  · next hadmin =>
    split
    · exact .failed
    · next target htarget =>
      split
      · exact .failed
      · next hguard =>
        have hset : Store.setServiceAdmin db name admin = (true, db.setServiceAdmin name admin) := by
          unfold Store.setServiceAdmin
          rw [htarget]
          rfl
        rw [hset]
        refine .setServiceAdmin (by simpa using hadmin) htarget fun ht ha => ?_
        simpa [ht, ha] using hguard

/-- Grant の効果。 -/
theorem effect_grant (group identity : String) (p : UInt8) :
    Effect prim inner amb db ident (.grant group identity p)
      (Bunker.grant prim inner amb db ident group identity p).1
      (Bunker.grant prim inner amb db ident group identity p).2 := by
  unfold Bunker.grant
  split
  · exact .denied
  · next gid hauth =>
    split
    · exact .failed
    split
    · exact .failed
    · next target htarget =>
      split
      · exact .failed
      unfold Bunker.applyGrant
      split
      · next hold hnew =>
        split
        · exact .failed
        · next hwraps =>
          split
          · exact .failed
          · next h => exact .gainRead hauth htarget hold hnew hwraps h
      · next hold hnew =>
        split
        · exact .failed
        · next hwraps =>
          split
          · exact .failed
          · next h => exact .loseRead hauth htarget hold hnew hwraps h
      · next hgain hlose =>
        split
        · exact .failed
        · next h =>
          refine .keepRead hauth htarget ?_ h
          cases hp : hasBit p permRead <;> cases hq : hasBit (perms db target.id gid) permRead
          · rfl
          · exact (hlose hq hp).elim
          · exact (hgain hq hp).elim
          · rfl

theorem effect_rotateDek (group : String) :
    Effect prim inner amb db ident (.rotateDek group)
      (Bunker.rotateDek prim inner amb db ident group).1
      (Bunker.rotateDek prim inner amb db ident group).2 := by
  unfold Bunker.rotateDek
  split
  · exact .denied
  · next gid hauth =>
    split
    · exact .failed
    · next hwraps =>
      split
      · exact .failed
      · next h => exact .rotateDek hauth hwraps h

theorem effect_dispatchAs (req : Request) :
    Effect prim inner amb db ident req (Bunker.dispatchAs prim inner amb db ident req).1
      (Bunker.dispatchAs prim inner amb db ident req).2 := by
  cases req with
  | put group name value e => exact effect_put group name value e
  | delete group name e => exact effect_delete group name e
  | createGroup name => exact effect_createGroup name
  | addIdentity name e admin => exact effect_addIdentity name e admin
  | removeIdentity name => exact effect_removeIdentity name
  | setServiceAdmin name admin => exact effect_setServiceAdmin name admin
  | grant group identity p => exact effect_grant group identity p
  | rotateDek group => exact effect_rotateDek group
  | get | list | listIdentities | listGroups | groupAcl | listIdentityNames =>
    exact .none (Or.inl rfl)

/-- 要求一つ：登録のない endpoint は拒まれ、登録された identity の要求は `Effect` のどれかである。 -/
theorem dispatch_cases (remote : String) (req : Request) :
    (identityByEndpoint db remote = .none ∧
      Bunker.dispatch prim inner amb db remote req = (.denied, db)) ∨
    ∃ ident, identityByEndpoint db remote = some ident ∧
      Effect prim inner amb db ident req (Bunker.dispatch prim inner amb db remote req).1
        (Bunker.dispatch prim inner amb db remote req).2 := by
  unfold Bunker.dispatch
  cases hi : identityByEndpoint db remote with
  | none => exact Or.inl ⟨rfl, rfl⟩
  | some ident => exact Or.inr ⟨ident, rfl, effect_dispatchAs req⟩

/-! ## `db grant` -/

/-- 成功した `db grant` が database にすること。audit の行だけを `log` にまとめる。 -/
inductive LocalEffect (prim : Primitives) (amb : Ambient) (db : Db) : Db → Prop
  | gainRead {p : UInt8} {gid : Nat} {target : Identity} {op : AgeIdentity}
      {wraps : List (Nat × Bytes)} {db' : Db} {log : List AuditRow}
      (registered : target ∈ db.identity)
      (before : hasBit (perms db target.id gid) permRead = false) (after : hasBit p permRead = true)
      (wrapped : Bunker.wrapsForNewReader prim op (amb.seed 0) db gid target.endpointId = some wraps)
      (granted : grantWithWraps db target.id gid p wraps target.endpointId = some db') :
      LocalEffect prim amb db (db'.withAudit log)
  | loseRead {p : UInt8} {gid n : Nat} {target : Identity} {op backup : Recipient}
      {wraps : List (String × Bytes)} {db' : Db} {log : List AuditRow}
      (registered : target ∈ db.identity)
      (before : hasBit (perms db target.id gid) permRead = true) (after : hasBit p permRead = false)
      (operational : Node.recordedRecipient prim db "operational_pubkey" = some op)
      (offline : Node.recordedRecipient prim db "backup_pubkey" = some backup)
      (wrapped : Bunker.wrapSetForGroup prim op backup (amb.seed 0 0) db gid (amb.dek 0)
        (some target.endpointId) = some wraps)
      (revoked : revokeReadAndRotate db gid target.id p target.endpointId wraps = some (n, db')) :
      LocalEffect prim amb db (db'.withAudit log)
  | keepRead {p : UInt8} {gid : Nat} {target : Identity} {db' : Db} {log : List AuditRow}
      (registered : target ∈ db.identity)
      (same : hasBit p permRead = hasBit (perms db target.id gid) permRead)
      (set : setPerms db target.id gid p = some db') : LocalEffect prim amb db (db'.withAudit log)

/-- CLI の grant の効果。 -/
theorem localEffect_dbGrant {group identity p : String} {key : Option AgeIdentity} {db' : Db}
    (h : Node.dbGrant prim amb db group identity p key = some db') :
    LocalEffect prim amb db db' := by
  unfold Node.dbGrant at h
  split at h
  · cases h
  · obtain ⟨p, -, h⟩ := Option.bind_eq_some_iff.mp h
    obtain ⟨gid, -, h⟩ := Option.bind_eq_some_iff.mp h
    obtain ⟨target, htarget, h⟩ := Option.bind_eq_some_iff.mp h
    have ht := (identityByName_eq_some.mp htarget).1
    unfold Node.grantLocally at h
    dsimp only at h
    split at h
    · next hold hnew =>
      obtain ⟨op, -, h⟩ := Option.bind_eq_some_iff.mp h
      obtain ⟨recorded, -, h⟩ := Option.bind_eq_some_iff.mp h
      split at h
      · cases h
      · obtain ⟨wraps, hwraps, h⟩ := Option.bind_eq_some_iff.mp h
        obtain ⟨fin, hfin, h⟩ := Option.bind_eq_some_iff.mp h
        cases h
        rw [Node.wrapsForGrantee_eq] at hwraps
        exact .gainRead ht hold hnew hwraps hfin
    · next hold hnew =>
      obtain ⟨op, hop, h⟩ := Option.bind_eq_some_iff.mp h
      obtain ⟨backup, hbackup, h⟩ := Option.bind_eq_some_iff.mp h
      obtain ⟨wraps, hwraps, h⟩ := Option.bind_eq_some_iff.mp h
      obtain ⟨⟨n, fin⟩, hfin, h⟩ := Option.bind_eq_some_iff.mp h
      cases h
      rw [Node.wrapsAfterRevoke_eq] at hwraps
      exact @LocalEffect.loseRead prim amb db p gid n target op backup wraps fin _ ht hold hnew hop
        hbackup hwraps hfin
    · next hgain hlose =>
      obtain ⟨fin, hfin, h⟩ := Option.bind_eq_some_iff.mp h
      cases h
      refine .keepRead ht ?_ hfin
      cases hp : hasBit p permRead <;> cases hq : hasBit (perms db target.id gid) permRead
      · rfl
      · exact (hlose hq hp).elim
      · exact (hgain hq hp).elim
      · rfl

end SecretBunker
