import SecretBunker.Store.Query
import Mathlib.Algebra.Group.Int.Defs

/-!
# `Store` の書き込み

`src/store.rs` の書き込み。一つの関数が一つの transaction であり、
途中の文が制約に触れたときは `none`（rollback して `Err`）になる。
-/

namespace SecretBunker

open Relational

/-- `dek_wrap.recipient` の特別な値。 -/
def recipientOperational : String := "operational"

/-- backup の鍵を指す recipient。 -/
def recipientBackup : String := "backup"

/-- compare-and-set の結果。 -/
inductive CasOutcome where
  | applied (newVersion : Nat)
  | conflict (current : Nat)
  deriving DecidableEq

/-- identity を消すときの group 一つぶん：id、消す recipient、新しい DEK の wrap。 -/
abbrev GroupRotation := Nat × String × List (String × Bytes)

namespace Store

variable (db : Db)

/-! ## meta と identity -/

/-- `meta` の値を順に置く。 -/
def metaSetMany (entries : List (String × String)) : Db :=
  entries.foldl (fun db e => db.upsertMeta e.1 e.2) db

/-- 空の database を authoritative として始める。 -/
def init (operationalPubkey backupPubkey adminEndpointId adminName : String) : Option Db :=
  if isInitialized db then none
  else
    (metaSetMany db [("operational_pubkey", operationalPubkey), ("backup_pubkey", backupPubkey),
      ("schema_version", "2"), ("role", "authoritative")]).insertIdentity
        adminEndpointId adminName true

/--
v2 の database を開く。

`migrate` は role の無い初期化済みの database に印を付け、
`stamp_schema_version` が schema の版を補う。どちらも在るものには触れない。
-/
def openDb : Db :=
  (if isInitialized db then db.insertMetaOrIgnore "role" "authoritative" else db).insertMetaOrIgnore
    "schema_version" "2"

/-- `Store::add_identity`。 -/
def addIdentity (name endpointId : String) (serviceAdmin : Bool) : Option Db :=
  db.insertIdentity endpointId name serviceAdmin

/-- 該当する identity が無ければ false。 -/
def setServiceAdmin (name : String) (serviceAdmin : Bool) : Bool × Db :=
  ((identityByName db name).isSome, db.setServiceAdmin name serviceAdmin)

/-! ## group と ACL -/

/-- 0 は行を消すことである。 -/
def setPerms (identityId groupId : Nat) (perms : UInt8) : Option Db :=
  if perms = 0 then
    some (db.deleteAcl fun a => a.identityId == identityId && a.groupId == groupId)
  else db.upsertAcl identityId groupId perms

/-- wrap の行を順に入れる。 -/
def insertWraps (groupId dekVersion : Nat) (wraps : List (String × Bytes)) : Option Db :=
  wraps.foldlM (fun db w => db.insertWrap groupId dekVersion w.1 w.2) db

/-- group を作り、DEK の version 1 と作成者の許可を入れる。 -/
def createGroup (name : String) (wraps : List (String × Bytes)) (creatorIdentityId : Nat)
    (creatorPerms : UInt8) : Option Db :=
  if wraps.isEmpty then none
  else do
    let (groupId, db) ← db.insertGroup name
    let db ← db.insertDek groupId 1
    let db ← insertWraps db groupId 1 wraps
    db.insertAcl creatorIdentityId groupId creatorPerms

/-- 次の DEK version を wrap と一緒に足す。 -/
def insertDekVersion (groupId : Nat) (wraps : List (String × Bytes)) : Option (Nat × Db) := do
  let next := (currentDekVersion db groupId).getD 0 + 1
  let db ← db.insertDek groupId next
  let db ← insertWraps db groupId next wraps
  some (next, db)

/-- DEK を一つ進める。 -/
def addDek (groupId : Nat) (wraps : List (String × Bytes)) : Option (Nat × Db) :=
  if wraps.isEmpty then none else insertDekVersion db groupId wraps

/-- 一人の recipient の wrap を version ごとに入れる。 -/
def upsertWraps (groupId : Nat) (recipient : String) (wraps : List (Nat × Bytes)) : Option Db :=
  wraps.foldlM (fun db w => db.upsertWrap groupId w.1 recipient w.2) db

/-- READ を含む許可を、grantee の wrap と一緒に与える。 -/
def grantWithWraps (identityId groupId : Nat) (perms : UInt8) (wraps : List (Nat × Bytes))
    (recipient : String) : Option Db :=
  if !hasBit perms permRead then none
  else do
    let db ← db.upsertAcl identityId groupId perms
    upsertWraps db groupId recipient wraps

/-- recipient の wrap をその group から消す。 -/
def deleteWraps (groupId : Nat) (recipient : String) : Db :=
  db.deleteWrap fun w => w.groupId == groupId && w.recipient == recipient

/-- READ を取り上げ、wrap を消し、DEK を回す。 -/
def revokeReadAndRotate (groupId targetIdentityId : Nat) (newPerms : UInt8)
    (revokedRecipient : String) (newDekWraps : List (String × Bytes)) : Option (Nat × Db) :=
  if newDekWraps.isEmpty then none
  else if hasBit newPerms permRead then none
  else do
    let db ← setPerms db targetIdentityId groupId newPerms
    insertDekVersion (deleteWraps db groupId revokedRecipient) groupId newDekWraps

/-- 一つの group から recipient を外し、DEK を回す。 -/
def rotateAway (rotation : GroupRotation) : Option Db :=
  (insertDekVersion (deleteWraps db rotation.1 rotation.2.1) rotation.1 rotation.2.2).map Prod.snd

/-- identity を消し、読めていた group の DEK をすべて回す。該当者が無ければ false。 -/
def removeIdentityWithRotations (name : String) (rotations : List GroupRotation) :
    Option (Bool × Db) :=
  if rotations.any (·.2.2.isEmpty) then none
  else if (identityByName db name).isNone then some (false, db)
  else do
    let db ← rotations.foldlM rotateAway (db.deleteIdentity (·.name == name))
    some (true, db)

/-- operational の wrap を一つ差し替える。UPDATE が 1 行に当たらなければ失敗する。 -/
def replaceOperational (rewrapped : Nat × Nat × Bytes) : Option Db :=
  if (wrapRow db rewrapped.1 rewrapped.2.1 recipientOperational).isSome then
    db.upsertWrap rewrapped.1 rewrapped.2.1 recipientOperational rewrapped.2.2
  else none

/-- operational の wrap を差し替え、新しい公開鍵を記録する。 -/
def applyRecovery (rewrapped : List (Nat × Nat × Bytes)) (newOperationalPubkey : String) :
    Option Db := do
  let db ← rewrapped.foldlM replaceOperational db
  some (db.upsertMeta "operational_pubkey" newOperationalPubkey)

/-! ## secret -/

/-- 新しい version の行を足し、`current_version` を進める。 -/
def commitVersion (secretId current dekVersion : Nat) (nonce ciphertext : Bytes) (now : Int)
    (createdBy : String) : Option (CasOutcome × Db) := do
  let db ← db.insertVersion ⟨secretId, current + 1, dekVersion, nonce, ciphertext, now, createdBy⟩
  some (.applied (current + 1), db.setCurrentVersion secretId (current + 1))

/-- compare-and-set の書き込み。`expectedVersion` 0 は「まだ無いこと」を求める。 -/
def putSecret (groupId : Nat) (name : String) (expectedVersion dekVersion : Nat)
    (nonce ciphertext : Bytes) (now : Int) (createdBy : String) : Option (CasOutcome × Db) :=
  match secretRow db groupId name with
  | some s =>
    if s.currentVersion ≠ expectedVersion then some (.conflict s.currentVersion, db)
    else commitVersion db s.id s.currentVersion dekVersion nonce ciphertext now createdBy
  | none =>
    if expectedVersion ≠ 0 then some (.conflict 0, db)
    else do
      let (secretId, db) ← db.insertSecret groupId name 0
      commitVersion db secretId 0 dekVersion nonce ciphertext now createdBy

/-- compare-and-set の削除。version の行もすべて消える。 -/
def deleteSecret (groupId : Nat) (name : String) (expectedVersion : Nat) : CasOutcome × Db :=
  match secretRow db groupId name with
  | none => (.conflict 0, db)
  | some s =>
    if s.currentVersion ≠ expectedVersion then (.conflict s.currentVersion, db)
    else (.applied 0, db.deleteSecret (·.id == s.id))

/-! ## audit log -/

/-- `i64::to_be_bytes` -/
def timestampBytes (ts : Int) : Bytes := toBeBytes (ts % 2 ^ 64).toNat

/-- 長さを前に置いた field。 -/
def auditField (field : String) : Bytes := toBeBytes (asBytes field).length ++ asBytes field

/-- 前の hash と行の欄をつなげた hash。 -/
def auditHash (prim : Primitives) (prev : Bytes) (ts : Int)
    (endpointId op target outcome : String) : Bytes :=
  prim.sha256 (prev ++ timestampBytes ts ++ auditField endpointId ++ auditField op
    ++ auditField target ++ auditField outcome)

/-- hash の鎖に一行足す。 -/
def audit (prim : Primitives) (now : Int) (endpointId op target outcome : String) : Db :=
  let prev := (db.auditLog.getLast?.map (·.hash)).getD (List.replicate 32 0)
  db.withAudit (db.auditLog ++
    [⟨now, endpointId, op, target, outcome, prev,
      auditHash prim prev now endpointId op target outcome⟩])

end Store

end SecretBunker
