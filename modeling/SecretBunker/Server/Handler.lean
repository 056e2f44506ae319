import SecretBunker.Store.Mutate

/-!
# `Bunker`：client の要求の処理

`src/server.rs` の前半。要求一つの処理は store の lock を握ったまま終わるので、
database から応答と次の database への関数である。
認可と読み取りの経路は replica の handler と共有する自由関数のままにしてある。
-/

namespace SecretBunker

open Relational

/-- 開いた bunker の鍵。lock の中の store は引数で渡す。 -/
structure Inner where
  opIdentity : AgeIdentity
  opRecipient : Recipient
  backupRecipient : Recipient
  deriving DecidableEq

/-- 原因を伏せた失敗。 -/
def internalError : Response := .failed "internal error"

/-! ## replica の handler と共有する関数 -/

/-- group を引き、`needed` の bit がすべて在ることを確かめる。 -/
def authorizeGroup (db : Db) (ident : Identity) (group : String) (needed : UInt8)
    (implicitAdmin : Bool) : Option Nat :=
  (Store.groupId db group).bind fun groupId =>
    if implicitAdmin then some groupId
    else if Store.perms db ident.id groupId &&& needed = needed then some groupId
    else none

/-- secret の現在の値を復号する。 -/
def openSecret (prim : Primitives) (db : Db) (groupId : Nat) (group name : String)
    (sv : SecretVersion) (dekRecipient : String) (dekIdentity : AgeIdentity) : Option Bytes := do
  let wrapped ← Store.dekWrap db groupId sv.dekVersion dekRecipient
  let dek ← unwrapDek prim wrapped dekIdentity
  decryptSecret prim dek (secretAad group name sv.version sv.dekVersion) sv.nonce sv.ciphertext

/-- 認可してから、secret を復号して返す。 -/
def readSecret (prim : Primitives) (db : Db) (ident : Identity) (group name : String)
    (dekRecipient : String) (dekIdentity : AgeIdentity) (implicitAdmin : Bool) : Response :=
  match authorizeGroup db ident group permRead implicitAdmin with
  | none => .denied
  | some groupId =>
    match Store.secretCurrent db groupId name with
    | none => .denied
    | some sv =>
      match openSecret prim db groupId group name sv dekRecipient dekIdentity with
      | some value => .secret value sv.version
      | none => internalError

/-- 認可してから、secret の名前を返す。 -/
def list (db : Db) (ident : Identity) (group : String) (implicitAdmin : Bool) : Response :=
  match authorizeGroup db ident group permRead implicitAdmin with
  | none => .denied
  | some groupId => .names (Store.listSecrets db groupId)

/-- 認可してから、group の ACL を返す。 -/
def groupAcl (db : Db) (ident : Identity) (group : String) (implicitAdmin : Bool) : Response :=
  match authorizeGroup db ident group permAdmin implicitAdmin with
  | none => .denied
  | some groupId => .acl (Store.groupAclEntries db groupId)

/-- 認可してから、identity の名前を返す。 -/
def listIdentityNames (db : Db) (ident : Identity) (group : String) (implicitAdmin : Bool) :
    Response :=
  match authorizeGroup db ident group permAdmin implicitAdmin with
  | none => .denied
  | some _ => .identityNames ((Store.listIdentities db).map (·.name))

/-- 明示的な許可だけの一覧。replica の ListGroups はこれがすべてである。 -/
def listGroupsExplicit (db : Db) (ident : Identity) : Response :=
  .groups false ((Store.groupsForIdentity db ident.id).map fun g => ⟨g.1, g.2⟩)

/-- audit log に残す結果。 -/
def auditOutcome : Response → String
  | .denied => "denied"
  | .versionConflict _ => "conflict"
  | .failed _ => "failed"
  | .readOnlyReplica _ => "readonly"
  | _ => "ok"

namespace Bunker

variable (prim : Primitives)

/-- 初期化済みの store を開く。operational key が記録と違えば開かない。 -/
def new (db : Db) (opIdentity : AgeIdentity) : Option Inner :=
  if Store.metaGet db "role" = some "replica" then none
  else do
    let recorded ← Store.metaGet db "operational_pubkey"
    if (prim.toPublic opIdentity).bech32 ≠ recorded then none
    else
      let backup ← Store.metaGet db "backup_pubkey"
      let backupRecipient ← prim.parseAgeRecipient backup
      some ⟨opIdentity, prim.toPublic opIdentity, backupRecipient⟩

/-! ## wrap -/

/-- どの version にも付く二つの wrap。 -/
def baseWraps (opRecipient backupRecipient : Recipient) (seed : String → Bytes) (dek : Dek) :
    List (String × Bytes) :=
  [(recipientOperational, wrapDek prim (seed recipientOperational) dek opRecipient),
    (recipientBackup, wrapDek prim (seed recipientBackup) dek backupRecipient)]

/-- EndpointId から導いた recipient に宛てた、reader の wrap。 -/
def wrapForReader (seed : String → Bytes) (dek : Dek) (endpointId : String) :
    Option (String × Bytes) :=
  (recipientForEndpointHex prim endpointId).map fun recipient =>
    (endpointId, wrapDek prim (seed endpointId) dek recipient)

/-- operational、backup と、`excludeEndpoint` を除く明示的な reader 全員に宛てた wrap。 -/
def wrapSetForGroup (opRecipient backupRecipient : Recipient) (seed : String → Bytes) (db : Db)
    (groupId : Nat) (dek : Dek) (excludeEndpoint : Option String) :
    Option (List (String × Bytes)) := do
  let readers ← ((Store.readGrantedIdentities db groupId).filter
      fun reader => some reader.endpointId ≠ excludeEndpoint).mapM
    fun reader => wrapForReader prim seed dek reader.endpointId
  some (baseWraps prim opRecipient backupRecipient seed dek ++ readers)

/-- operational の wrap を開く。 -/
def unwrapOperational (opIdentity : AgeIdentity) (db : Db) (groupId version : Nat) : Option Dek :=
  (Store.dekWrap db groupId version recipientOperational).bind fun wrapped =>
    unwrapDek prim wrapped opIdentity

/-- 残っている DEK の version をすべて、新しい reader に包み直す。 -/
def wrapsForNewReader (opIdentity : AgeIdentity) (seed : Nat → String → Bytes) (db : Db)
    (groupId : Nat) (endpointId : String) : Option (List (Nat × Bytes)) := do
  let recipient ← recipientForEndpointHex prim endpointId
  (Store.dekVersions db groupId).mapM fun version => do
    let dek ← unwrapOperational prim opIdentity db groupId version
    some (version, wrapDek prim (seed version endpointId) dek recipient)

/-! ## 要求ごとの処理 -/

variable (inner : Inner) (amb : Ambient) (db : Db) (ident : Identity)

/-- service admin には、すべての group をすべての許可とともに返す。 -/
def listGroups : Response :=
  if !ident.serviceAdmin then listGroupsExplicit db ident
  else .groups true ((Store.allGroupsWithPerms db ident.id).map fun g =>
    ⟨g.1, permRead ||| permWrite ||| permAdmin⟩)

/-- Put。version が合わなければ何も書かない。 -/
def put (group name : String) (value : Bytes) (expectedVersion : UInt64) : Response × Db :=
  match authorizeGroup db ident group permWrite ident.serviceAdmin with
  | none => (.denied, db)
  | some groupId =>
    match Store.currentDekVersion db groupId with
    | none => (internalError, db)
    | some dekVersion =>
      match Store.dekWrap db groupId dekVersion recipientOperational with
      | none => (internalError, db)
      | some wrappedOp =>
        let newVersion := (Store.secretVersion db groupId name).getD 0 + 1
        -- checked_add が溢れる u64::MAX は conflict になる
        if 2 ^ 64 ≤ expectedVersion.toNat + 1 then (.versionConflict (newVersion - 1), db)
        else
          let targetVersion := expectedVersion.toNat + 1
          if targetVersion ≠ newVersion ∧ expectedVersion ≠ 0 then
            (.versionConflict (newVersion - 1), db)
          else
            match unwrapDek prim wrappedOp inner.opIdentity with
            | none => (internalError, db)
            | some dek =>
              let encrypted := encryptSecret prim amb.nonce dek
                (secretAad group name targetVersion dekVersion) value
              match Store.putSecret db groupId name expectedVersion.toNat dekVersion encrypted.1
                encrypted.2 amb.now ident.name with
              | some (.applied newVersion, db) => (.version newVersion, db)
              | some (.conflict current, db) => (.versionConflict current, db)
              | none => (internalError, db)

/-- Delete。version が合わなければ何も消さない。 -/
def delete (group name : String) (expectedVersion : UInt64) : Response × Db :=
  match authorizeGroup db ident group permWrite ident.serviceAdmin with
  | none => (.denied, db)
  | some groupId =>
    match Store.deleteSecret db groupId name expectedVersion.toNat with
    | (.applied _, db) => (.ok, db)
    | (.conflict current, db) => (.versionConflict current, db)

/-- CreateGroup。作成者はすべての許可を持つ。 -/
def createGroup (name : String) : Response × Db :=
  if !ident.serviceAdmin then (.denied, db)
  else if (Store.groupId db name).isSome then
    (.failed ("group '" ++ name ++ "' already exists"), db)
  else
    match wrapForReader prim (amb.seed 0 0) (amb.dek 0) ident.endpointId with
    | none => (internalError, db)
    | some creator =>
      match Store.createGroup db name
        (baseWraps prim inner.opRecipient inner.backupRecipient (amb.seed 0 0) (amb.dek 0)
          ++ [creator]) ident.id (permRead ||| permWrite ||| permAdmin) with
      | none => (internalError, db)
      | some db => (.ok, db)

/-- AddIdentity。 -/
def addIdentity (name endpointId : String) (serviceAdmin : Bool) : Response × Db :=
  if !ident.serviceAdmin then (.denied, db)
  else
    match prim.parseEndpointId endpointId with
    | none => (.failed "invalid endpoint id", db)
    | some parsed =>
      match Store.addIdentity db name parsed.text serviceAdmin with
      | none => (.failed "identity name or endpoint id already registered", db)
      | some db => (.ok, db)

/-- 名前の付いた identity が無いときの失敗。 -/
def noIdentityNamed (name : String) : Response := .failed ("no identity named '" ++ name ++ "'")

/-- service admin の数。 -/
def serviceAdmins : Nat := ((Store.listIdentities db).filter (·.serviceAdmin)).length

/-- 消える identity が読めていた group ごとの、新しい DEK の wrap。 -/
def removalRotations (target : Identity) : Option (List GroupRotation) :=
  (Store.groupsWithRead db target.id).zipIdx.mapM fun g =>
    (wrapSetForGroup prim inner.opRecipient inner.backupRecipient (amb.seed g.2 0) db g.1
      (amb.dek g.2) (some target.endpointId)).map fun wraps => (g.1, target.endpointId, wraps)

/-- 回した group ごとの audit の行。 -/
def auditRotations (now : Int) (endpointId : String) (groups : List String) : Db :=
  groups.foldl (fun db group => Store.audit db prim now endpointId "rotate-dek" group "ok") db

/-- RemoveIdentity。READ のあった group の DEK を回す。 -/
def removeIdentity (name : String) : Response × Db :=
  if !ident.serviceAdmin then (.denied, db)
  else
    match Store.identityByName db name with
    | none => (noIdentityNamed name, db)
    | some target =>
      if target.serviceAdmin && serviceAdmins db ≤ 1 then
        (.failed "cannot remove the last service admin", db)
      else
        match removalRotations prim inner amb db target with
        | none => (internalError, db)
        | some rotations =>
          let rotatedNames := (Store.groupsWithRead db target.id).filterMap (Store.groupName db)
          match Store.removeIdentityWithRotations db name rotations with
          | some (true, db) =>
            (.ok, auditRotations prim db amb.now ident.endpointId rotatedNames)
          | some (false, db) => (noIdentityNamed name, db)
          | none => (internalError, db)

/-- ListIdentities。 -/
def listIdentities : Response :=
  if !ident.serviceAdmin then .denied
  else .identities ((Store.listIdentities db).map fun i => ⟨i.name, i.endpointId, i.serviceAdmin⟩)

/-- SetServiceAdmin。最後の一人の印は落とせない。 -/
def setServiceAdmin (name : String) (serviceAdmin : Bool) : Response × Db :=
  if !ident.serviceAdmin then (.denied, db)
  else
    match Store.identityByName db name with
    | none => (noIdentityNamed name, db)
    | some target =>
      if target.serviceAdmin && !serviceAdmin && serviceAdmins db ≤ 1 then
        (.failed "cannot revoke the last service admin", db)
      else
        match Store.setServiceAdmin db name serviceAdmin with
        | (true, db) => (.ok, db)
        | (false, db) => (internalError, db)

/-- ACL の書き換え。READ の増減に応じて wrap を配るか DEK を回す。 -/
def applyGrant (groupId : Nat) (group : String) (target : Identity) (perms : UInt8) :
    Response × Db :=
  match hasBit (Store.perms db target.id groupId) permRead, hasBit perms permRead with
  | false, true =>
    match wrapsForNewReader prim inner.opIdentity (amb.seed 0) db groupId target.endpointId with
    | none => (internalError, db)
    | some wraps =>
      match Store.grantWithWraps db target.id groupId perms wraps target.endpointId with
      | none => (internalError, db)
      | some db => (.ok, db)
  | true, false =>
    match wrapSetForGroup prim inner.opRecipient inner.backupRecipient (amb.seed 0 0) db groupId
      (amb.dek 0) (some target.endpointId) with
    | none => (internalError, db)
    | some newWraps =>
      match Store.revokeReadAndRotate db groupId target.id perms target.endpointId newWraps with
      | none => (internalError, db)
      | some (_, db) => (.ok, auditRotations prim db amb.now ident.endpointId [group])
  | _, _ =>
    match Store.setPerms db target.id groupId perms with
    | none => (internalError, db)
    | some db => (.ok, db)

/-- Grant。最後の ADMIN は外せない。 -/
def grant (group identity : String) (perms : UInt8) : Response × Db :=
  match authorizeGroup db ident group permAdmin ident.serviceAdmin with
  | none => (.denied, db)
  | some groupId =>
    if perms &&& ~~~(permRead ||| permWrite ||| permAdmin) ≠ 0 then
      (.failed "invalid permission bits", db)
    else
      match Store.identityByName db identity with
      | none => (noIdentityNamed identity, db)
      | some target =>
        if hasBit (Store.perms db target.id groupId) permAdmin && !hasBit perms permAdmin
            && Store.adminCount db groupId ≤ 1 then
          (.failed ("cannot remove the last admin of group '" ++ group ++ "'"), db)
        else applyGrant prim inner amb db ident groupId group target perms

/-- RotateDek。 -/
def rotateDek (group : String) : Response × Db :=
  match authorizeGroup db ident group permAdmin ident.serviceAdmin with
  | none => (.denied, db)
  | some groupId =>
    match wrapSetForGroup prim inner.opRecipient inner.backupRecipient (amb.seed 0 0) db groupId
      (amb.dek 0) none with
    | none => (internalError, db)
    | some wraps =>
      match Store.addDek db groupId wraps with
      | none => (internalError, db)
      | some (_, db) => (.ok, db)

/-! ## 振り分け -/

/-- 登録された identity の要求。 -/
def dispatchAs (req : Request) : Response × Db :=
  match req with
  | .get group name =>
    (readSecret prim db ident group name recipientOperational inner.opIdentity ident.serviceAdmin, db)
  | .put group name value expectedVersion =>
    put prim inner amb db ident group name value expectedVersion
  | .delete group name expectedVersion => delete db ident group name expectedVersion
  | .list group => (list db ident group ident.serviceAdmin, db)
  | .createGroup name => createGroup prim inner amb db ident name
  | .addIdentity name endpointId serviceAdmin =>
    addIdentity prim db ident name endpointId serviceAdmin
  | .removeIdentity name => removeIdentity prim inner amb db ident name
  | .listIdentities => (listIdentities db ident, db)
  | .grant group identity perms => grant prim inner amb db ident group identity perms
  | .rotateDek group => rotateDek prim inner amb db ident group
  | .listGroups => (listGroups db ident, db)
  | .groupAcl group => (groupAcl db ident group ident.serviceAdmin, db)
  | .listIdentityNames group => (listIdentityNames db ident group ident.serviceAdmin, db)
  | .setServiceAdmin name serviceAdmin => setServiceAdmin db ident name serviceAdmin

/-- 登録のない endpoint は、要求の中身を見ずに拒む。 -/
def dispatch (remote : String) (req : Request) : Response × Db :=
  match Store.identityByEndpoint db remote with
  | none => (.denied, db)
  | some ident => dispatchAs prim inner amb db ident req

/-- RemoveIdentity が触れる group。振り分けの後では identity がもう無いので、先に引いておく。 -/
def removalScope : Request → List String
  | .removeIdentity name =>
    match Store.identityByName db name with
    | some target => (Store.groupsForIdentity db target.id).map Prod.fst
    | none => []
  | _ => []

/-- 成功した要求が変えた group。 -/
def touchedGroups (req : Request) (removalScope : List String) : List String :=
  match req with
  | .put group .. => [group]
  | .delete group .. => [group]
  | .grant group .. => [group]
  | .rotateDek group => [group]
  | .createGroup name => [name]
  | .removeIdentity _ => removalScope
  | _ => []

/-- 要求一つの結果。`published` は sync の session に流す group の名前である。 -/
structure Handled where
  response : Response
  db : Db
  published : List String

/-- 要求一つ。答えの後に audit の行を足し、成功なら触れた group を知らせる。 -/
def handle (remote : String) (req : Request) : Handled :=
  let scope := removalScope db req
  let outcome := dispatch prim inner amb db remote req
  { response := outcome.1
    db := Store.audit outcome.2 prim amb.now remote req.op req.target (auditOutcome outcome.1)
    published := if auditOutcome outcome.1 = "ok" then touchedGroups req scope else [] }

/-- 復号できない frame は一様に拒む。`decode` は CBOR の復号である。 -/
def handleRaw (decode : Bytes → Option Request) (remote : String) (frame : Bytes) : Handled :=
  match decode frame with
  | some req => handle prim inner amb db remote req
  | none =>
    { response := .denied
      db := Store.audit db prim amb.now remote "malformed" "" "denied"
      published := [] }

end Bunker

end SecretBunker
