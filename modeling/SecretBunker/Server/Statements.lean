import SecretBunker.Lib.Transaction
import SecretBunker.Server.Handler

/-!
# 文の単位で見た `Bunker`

`src/store.rs` と `src/server.rs` の、SQL の文ごとの姿。どの文も失敗しうるので、
`Result` の扱い（`?`、`ok()`、`unwrap_or`、無視）をここでは source のとおりに写す。
-/

namespace SecretBunker

open Relational Transaction

namespace Statements

/-! ## `Store` の書き込み -/

namespace Tx

/-- 新しい version の行を足し、`current_version` を進める。 -/
def commitVersion (secretId current dekVersion : Nat) (nonce ciphertext : Bytes) (now : Int)
    (createdBy : String) : Sql Db (Ending CasOutcome) := do
  execute fun db =>
    db.insertVersion ⟨secretId, current + 1, dekVersion, nonce, ciphertext, now, createdBy⟩
  execute fun db => some (db.setCurrentVersion secretId (current + 1))
  pure (.commit (.applied (current + 1)))

/-- `Store::put_secret`。 -/
def putSecret (groupId : Nat) (name : String) (expectedVersion dekVersion : Nat)
    (nonce ciphertext : Bytes) (now : Int) (createdBy : String) : Sql Db CasOutcome :=
  transaction do
    match ← query fun db => some (Store.secretRow db groupId name) with
    | some s =>
      if s.currentVersion ≠ expectedVersion then pure (.rollback (.conflict s.currentVersion))
      else commitVersion s.id s.currentVersion dekVersion nonce ciphertext now createdBy
    | none =>
      if expectedVersion ≠ 0 then pure (.rollback (.conflict 0))
      else
        let secretId ← statement fun db => db.insertSecret groupId name 0
        commitVersion secretId 0 dekVersion nonce ciphertext now createdBy

/-- `Store::delete_secret`。 -/
def deleteSecret (groupId : Nat) (name : String) (expectedVersion : Nat) : Sql Db CasOutcome :=
  transaction do
    match ← query fun db => some (Store.secretRow db groupId name) with
    | none => pure (.rollback (.conflict 0))
    | some s =>
      if s.currentVersion ≠ expectedVersion then pure (.rollback (.conflict s.currentVersion))
      else
        execute fun db => some (db.deleteSecret (·.id == s.id))
        pure (.commit (.applied 0))

/-- wrap を一行ずつ足す。 -/
def insertWraps (groupId dekVersion : Nat) (wraps : List (String × Bytes)) : Sql Db Unit :=
  wraps.forM fun w => execute fun db => db.insertWrap groupId dekVersion w.1 w.2

/-- `Store::create_group`。 -/
def createGroup (name : String) (wraps : List (String × Bytes)) (creatorIdentityId : Nat)
    (creatorPerms : UInt8) : Sql Db Unit := do
  ensure !wraps.isEmpty
  transaction do
    let groupId ← statement fun db => db.insertGroup name
    execute fun db => db.insertDek groupId 1
    insertWraps groupId 1 wraps
    execute fun db => db.insertAcl creatorIdentityId groupId creatorPerms
    pure (.commit ())

/-- 次の version の DEK とその wrap を足す。 -/
def insertDekVersion (groupId : Nat) (wraps : List (String × Bytes)) : Sql Db Nat := do
  let next ← query fun db => some ((Store.currentDekVersion db groupId).getD 0 + 1)
  execute fun db => db.insertDek groupId next
  insertWraps groupId next wraps
  pure next

/-- `Store::add_dek`。 -/
def addDek (groupId : Nat) (wraps : List (String × Bytes)) : Sql Db Nat := do
  ensure !wraps.isEmpty
  transaction do
    let next ← insertDekVersion groupId wraps
    pure (.commit next)

/-- 許可が 0 なら DELETE、そうでなければ upsert の一文である。 -/
def setPerms (identityId groupId : Nat) (perms : UInt8) : Sql Db Unit :=
  execute fun db => Store.setPerms db identityId groupId perms

/-- `Store::grant_with_wraps`。 -/
def grantWithWraps (identityId groupId : Nat) (perms : UInt8) (wraps : List (Nat × Bytes))
    (recipient : String) : Sql Db Unit := do
  ensure (hasBit perms permRead)
  transaction do
    execute fun db => db.upsertAcl identityId groupId perms
    wraps.forM fun w => execute fun db => db.upsertWrap groupId w.1 recipient w.2
    pure (.commit ())

/-- recipient の wrap を消す。 -/
def deleteWraps (groupId : Nat) (recipient : String) : Sql Db Unit :=
  execute fun db => some (Store.deleteWraps db groupId recipient)

/-- `Store::revoke_read_and_rotate`。 -/
def revokeReadAndRotate (groupId targetIdentityId : Nat) (newPerms : UInt8)
    (revokedRecipient : String) (newDekWraps : List (String × Bytes)) : Sql Db Nat := do
  ensure !newDekWraps.isEmpty
  ensure !hasBit newPerms permRead
  transaction do
    setPerms targetIdentityId groupId newPerms
    deleteWraps groupId revokedRecipient
    let next ← insertDekVersion groupId newDekWraps
    pure (.commit next)

/-- recipient を外して DEK を回す。 -/
def rotateAway (rotation : GroupRotation) : Sql Db Unit := do
  deleteWraps rotation.1 rotation.2.1
  let _ ← insertDekVersion rotation.1 rotation.2.2
  pure ()

/-- `Store::remove_identity_with_rotations`。 -/
def removeIdentityWithRotations (name : String) (rotations : List GroupRotation) : Sql Db Bool := do
  ensure !rotations.any (·.2.2.isEmpty)
  transaction do
    let removed ← statement fun db =>
      some ((Store.identityByName db name).isSome, db.deleteIdentity (·.name == name))
    -- 早い return で transaction を落とすと、rollback になる
    if !removed then pure (.rollback false)
    else
      rotations.forM rotateAway
      pure (.commit true)

/-- hash の鎖に一行足す。末尾の読み取りと追記は別の文である。 -/
def audit (prim : Primitives) (now : Int) (endpointId op target outcome : String) :
    Sql Db Unit := do
  let prev ← query fun db => some ((db.auditLog.getLast?.map (·.hash)).getD (List.replicate 32 0))
  execute fun db => some (db.withAudit (db.auditLog ++
    [⟨now, endpointId, op, target, outcome, prev,
      Store.auditHash prim prev now endpointId op target outcome⟩]))

end Tx

/-! ## 共有の関数 -/

/-- 失敗も、無いことも、同じ `none` になる。 -/
def authorizeGroup (ident : Identity) (group : String) (needed : UInt8) (implicitAdmin : Bool) :
    Sql Db Nat := do
  let groupId ← query fun db => Store.groupId db group
  if implicitAdmin then pure groupId
  else
    let perms ← query fun db => some (Store.perms db ident.id groupId)
    ensure (perms &&& needed = needed)
    pure groupId

/-- 一つの SELECT の答えをそのまま応答にする。 -/
def respond {α : Type} (select : Db → α) (answer : α → Response) : Script Db Response := do
  match ← (query fun db => some (select db)).run with
  | none => pure internalError
  | some a => pure (answer a)

/-- 認可してから、secret を復号して返す。 -/
def readSecret (prim : Primitives) (ident : Identity) (group name dekRecipient : String)
    (dekIdentity : AgeIdentity) (implicitAdmin : Bool) : Script Db Response := do
  match ← (authorizeGroup ident group permRead implicitAdmin).run with
  | none => pure .denied
  | some groupId =>
    match ← (query fun db => Store.secretCurrent db groupId name).run with
    | none => pure .denied
    | some sv =>
      match ← (query fun db => openSecret prim db groupId group name sv dekRecipient dekIdentity).run with
      | none => pure internalError
      | some value => pure (.secret value sv.version)

/-- 認可してから、secret の名前を返す。 -/
def list (ident : Identity) (group : String) (implicitAdmin : Bool) : Script Db Response := do
  match ← (authorizeGroup ident group permRead implicitAdmin).run with
  | none => pure .denied
  | some groupId => respond (Store.listSecrets · groupId) .names

/-- 認可してから、group の ACL を返す。 -/
def groupAcl (ident : Identity) (group : String) (implicitAdmin : Bool) : Script Db Response := do
  match ← (authorizeGroup ident group permAdmin implicitAdmin).run with
  | none => pure .denied
  | some groupId => respond (Store.groupAclEntries · groupId) .acl

/-- 認可してから、identity の名前を返す。 -/
def listIdentityNames (ident : Identity) (group : String) (implicitAdmin : Bool) :
    Script Db Response := do
  match ← (authorizeGroup ident group permAdmin implicitAdmin).run with
  | none => pure .denied
  | some _ => respond Store.listIdentities fun ids => .identityNames (ids.map (·.name))

/-- ACL にある group だけを返す。 -/
def listGroupsExplicit (ident : Identity) : Script Db Response :=
  respond (Store.groupsForIdentity · ident.id) fun groups =>
    .groups false (groups.map fun g => ⟨g.1, g.2⟩)

/-! ## 要求ごとの処理 -/

variable (prim : Primitives) (inner : Inner) (amb : Ambient) (ident : Identity)

/-- service admin には、すべての group を返す。 -/
def listGroups : Script Db Response :=
  if !ident.serviceAdmin then listGroupsExplicit ident
  else respond (Store.allGroupsWithPerms · ident.id) fun groups =>
    .groups true (groups.map fun g => ⟨g.1, permRead ||| permWrite ||| permAdmin⟩)

/-- Put の文の列。 -/
def put (group name : String) (value : Bytes) (expectedVersion : UInt64) : Script Db Response := do
  match ← (authorizeGroup ident group permWrite ident.serviceAdmin).run with
  | none => pure .denied
  | some groupId =>
    match ← (query fun db => Store.currentDekVersion db groupId).run with
    | none => pure internalError
    | some dekVersion =>
      match ← (query fun db => Store.dekWrap db groupId dekVersion recipientOperational).run with
      | none => pure internalError
      | some wrappedOp =>
        match ← (query fun db => some (Store.secretVersion db groupId name)).run with
        | none => pure internalError
        | some version =>
          let newVersion := version.getD 0 + 1
          if 2 ^ 64 ≤ expectedVersion.toNat + 1 then pure (.versionConflict (newVersion - 1))
          else
            let targetVersion := expectedVersion.toNat + 1
            if targetVersion ≠ newVersion ∧ expectedVersion ≠ 0 then
              pure (.versionConflict (newVersion - 1))
            else
              match unwrapDek prim wrappedOp inner.opIdentity with
              | none => pure internalError
              | some dek =>
                let encrypted := encryptSecret prim amb.nonce dek
                  (secretAad group name targetVersion dekVersion) value
                match ← (Tx.putSecret groupId name expectedVersion.toNat dekVersion encrypted.1
                  encrypted.2 amb.now ident.name).run with
                | some (.applied newVersion) => pure (.version newVersion)
                | some (.conflict current) => pure (.versionConflict current)
                | none => pure internalError

/-- Delete の文の列。 -/
def delete (group name : String) (expectedVersion : UInt64) : Script Db Response := do
  match ← (authorizeGroup ident group permWrite ident.serviceAdmin).run with
  | none => pure .denied
  | some groupId =>
    match ← (Tx.deleteSecret groupId name expectedVersion.toNat).run with
    | some (.applied _) => pure .ok
    | some (.conflict current) => pure (.versionConflict current)
    | none => pure internalError

/-- store の書き込みの成否を、そのまま応答にする。 -/
def acknowledge {α : Type} (write : Sql Db α) (failure : Response) : Script Db Response := do
  match ← write.run with
  | some _ => pure .ok
  | none => pure failure

/-- CreateGroup の文の列。 -/
def createGroup (name : String) : Script Db Response :=
  if !ident.serviceAdmin then pure .denied
  else do
    match ← (query fun db => Store.groupId db name).run with
    | some _ => pure (.failed ("group '" ++ name ++ "' already exists"))
    | none =>
      match Bunker.wrapForReader prim (amb.seed 0 0) (amb.dek 0) ident.endpointId with
      | none => pure internalError
      | some creator =>
        acknowledge (Tx.createGroup name
          (Bunker.baseWraps prim inner.opRecipient inner.backupRecipient (amb.seed 0 0) (amb.dek 0)
            ++ [creator]) ident.id (permRead ||| permWrite ||| permAdmin)) internalError

/-- AddIdentity の文の列。 -/
def addIdentity (name endpointId : String) (serviceAdmin : Bool) : Script Db Response :=
  if !ident.serviceAdmin then pure .denied
  else
    match prim.parseEndpointId endpointId with
    | none => pure (.failed "invalid endpoint id")
    | some parsed =>
      acknowledge (execute fun db => Store.addIdentity db name parsed.text serviceAdmin)
        (.failed "identity name or endpoint id already registered")

/-- 最後の service admin か。数えられなければ 0 人とみなす。 -/
def lastServiceAdmin : Script Db Bool := do
  match ← (query fun db => some (Bunker.serviceAdmins db)).run with
  | some admins => pure (admins ≤ 1)
  | none => pure true

/-- 消える identity が読めていた group 一つ。名前は引けなければ落とす。 -/
def removalRotation (target : Identity) (g : Nat × Nat) : Sql Db (GroupRotation × Option String) := do
  let wraps ← query fun db => Bunker.wrapSetForGroup prim inner.opRecipient inner.backupRecipient
    (amb.seed g.2 0) db g.1 (amb.dek g.2) (some target.endpointId)
  let name ← OptionT.lift (query fun db => Store.groupName db g.1).run
  pure ((g.1, target.endpointId, wraps), name)

/-- 回した group ごとの audit の行。失敗しても続ける。 -/
def auditRotations (endpointId : String) : List String → Script Db Unit
  | [] => pure ()
  | group :: groups => do
    let _ ← (Tx.audit prim amb.now endpointId "rotate-dek" group "ok").run
    auditRotations endpointId groups

/-- RemoveIdentity の文の列。 -/
def removeIdentity (name : String) : Script Db Response :=
  if !ident.serviceAdmin then pure .denied
  else do
    match ← (query fun db => some (Store.identityByName db name)).run with
    | none => pure internalError
    | some none => pure (Bunker.noIdentityNamed name)
    | some (some target) =>
      if ← (if target.serviceAdmin then lastServiceAdmin else pure false) then
        pure (.failed "cannot remove the last service admin")
      else
        match ← (query fun db => some (Store.groupsWithRead db target.id)).run with
        | none => pure internalError
        | some groupIds =>
          match ← (groupIds.zipIdx.mapM (removalRotation prim inner amb target)).run with
          | none => pure internalError
          | some rotations =>
            match ← (Tx.removeIdentityWithRotations name (rotations.map Prod.fst)).run with
            | some true =>
              auditRotations prim amb ident.endpointId (rotations.filterMap Prod.snd)
              pure .ok
            | some false => pure (Bunker.noIdentityNamed name)
            | none => pure internalError

/-- ListIdentities の文の列。 -/
def listIdentities : Script Db Response :=
  if !ident.serviceAdmin then pure .denied
  else respond Store.listIdentities fun ids =>
    .identities (ids.map fun i => ⟨i.name, i.endpointId, i.serviceAdmin⟩)

/-- SetServiceAdmin の文の列。 -/
def setServiceAdmin (name : String) (serviceAdmin : Bool) : Script Db Response :=
  if !ident.serviceAdmin then pure .denied
  else do
    match ← (query fun db => some (Store.identityByName db name)).run with
    | none => pure internalError
    | some none => pure (Bunker.noIdentityNamed name)
    | some (some target) =>
      if ← (if target.serviceAdmin && !serviceAdmin then lastServiceAdmin else pure false) then
        pure (.failed "cannot revoke the last service admin")
      else
        -- UPDATE が当たらなければ、`Ok(false)` も失敗として扱う
        acknowledge (execute fun db =>
          match Store.setServiceAdmin db name serviceAdmin with
          | (true, db') => some db'
          | (false, _) => none) internalError

/-- 残っている DEK の version をすべて、新しい reader に包み直す。wrap は一つずつ読む。 -/
def wrapsForNewReader (groupId : Nat) (endpointId : String) : Sql Db (List (Nat × Bytes)) := do
  let recipient ← OptionT.mk (pure (recipientForEndpointHex prim endpointId))
  let versions ← query fun db => some (Store.dekVersions db groupId)
  versions.mapM fun version => do
    let dek ← query fun db => Bunker.unwrapOperational prim inner.opIdentity db groupId version
    pure (version, wrapDek prim (amb.seed 0 version endpointId) dek recipient)

/-- READ の変わり方によって、包むか、回すか、ACL だけを書く。 -/
def applyGrant (current : UInt8) (groupId : Nat) (group : String) (target : Identity)
    (perms : UInt8) : Script Db Response :=
  match hasBit current permRead, hasBit perms permRead with
  | false, true => do
    match ← (wrapsForNewReader prim inner amb groupId target.endpointId).run with
    | none => pure internalError
    | some wraps =>
      acknowledge (Tx.grantWithWraps target.id groupId perms wraps target.endpointId) internalError
  | true, false => do
    match ← (query fun db => Bunker.wrapSetForGroup prim inner.opRecipient inner.backupRecipient
      (amb.seed 0 0) db groupId (amb.dek 0) (some target.endpointId)).run with
    | none => pure internalError
    | some newWraps =>
      match ← (Tx.revokeReadAndRotate groupId target.id perms target.endpointId newWraps).run with
      | none => pure internalError
      | some _ =>
        auditRotations prim amb ident.endpointId [group]
        pure .ok
  | _, _ => acknowledge (Tx.setPerms target.id groupId perms) internalError

/-- admin を失わせる変更だけが、残りの admin を数える。 -/
def grant (group identity : String) (perms : UInt8) : Script Db Response := do
  match ← (authorizeGroup ident group permAdmin ident.serviceAdmin).run with
  | none => pure .denied
  | some groupId =>
    if perms &&& ~~~(permRead ||| permWrite ||| permAdmin) ≠ 0 then
      pure (.failed "invalid permission bits")
    else
      match ← (query fun db => some (Store.identityByName db identity)).run with
      | none => pure internalError
      | some none => pure (Bunker.noIdentityNamed identity)
      | some (some target) =>
        match ← (query fun db => some (Store.perms db target.id groupId)).run with
        | none => pure internalError
        | some current =>
          if hasBit current permAdmin && !hasBit perms permAdmin then
            match ← (query fun db => some (Store.adminCount db groupId)).run with
            | none => pure internalError
            | some admins =>
              if admins ≤ 1 then
                pure (.failed ("cannot remove the last admin of group '" ++ group ++ "'"))
              else applyGrant prim inner amb ident current groupId group target perms
          else applyGrant prim inner amb ident current groupId group target perms

/-- RotateDek の文の列。 -/
def rotateDek (group : String) : Script Db Response := do
  match ← (authorizeGroup ident group permAdmin ident.serviceAdmin).run with
  | none => pure .denied
  | some groupId =>
    match ← (query fun db => Bunker.wrapSetForGroup prim inner.opRecipient inner.backupRecipient
      (amb.seed 0 0) db groupId (amb.dek 0) none).run with
    | none => pure internalError
    | some wraps => acknowledge (Tx.addDek groupId wraps) internalError

/-! ## 振り分け -/

/-- 登録された identity の要求を振り分ける。 -/
def dispatchAs : Request → Script Db Response
  | .get group name =>
    readSecret prim ident group name recipientOperational inner.opIdentity ident.serviceAdmin
  | .put group name value expectedVersion => put prim inner amb ident group name value expectedVersion
  | .delete group name expectedVersion => delete ident group name expectedVersion
  | .list group => list ident group ident.serviceAdmin
  | .createGroup name => createGroup prim inner amb ident name
  | .addIdentity name endpointId serviceAdmin => addIdentity prim ident name endpointId serviceAdmin
  | .removeIdentity name => removeIdentity prim inner amb ident name
  | .listIdentities => listIdentities ident
  | .grant group identity perms => grant prim inner amb ident group identity perms
  | .rotateDek group => rotateDek prim inner amb ident group
  | .listGroups => listGroups ident
  | .groupAcl group => groupAcl ident group ident.serviceAdmin
  | .listIdentityNames group => listIdentityNames ident group ident.serviceAdmin
  | .setServiceAdmin name serviceAdmin => setServiceAdmin ident name serviceAdmin

/-- 登録のない endpoint は拒む。 -/
def dispatch (remote : String) (req : Request) : Script Db Response := do
  match ← (query fun db => Store.identityByEndpoint db remote).run with
  | none => pure .denied
  | some ident => dispatchAs prim inner amb ident req

/-- 引けなければ空の範囲になる。 -/
def removalScope : Request → Script Db (List String)
  | .removeIdentity name => do
    match ← (query fun db => Store.identityByName db name).run with
    | none => pure []
    | some target =>
      match ← (query fun db => some (Store.groupsForIdentity db target.id)).run with
      | none => pure []
      | some groups => pure (groups.map Prod.fst)
  | _ => pure []

/-- 応答と、sync の session に流す group の名前。audit の失敗は応答を変えない。 -/
def handle (remote : String) (req : Request) : Script Db (Response × List String) := do
  let scope ← removalScope req
  let outcome ← dispatch prim inner amb remote req
  let _ ← (Tx.audit prim amb.now remote req.op req.target (auditOutcome outcome)).run
  pure (outcome, if auditOutcome outcome = "ok" then Bunker.touchedGroups req scope else [])

end Statements

end SecretBunker
