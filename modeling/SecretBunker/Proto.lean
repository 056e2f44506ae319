import SecretBunker.Crypto

/-!
# client protocol

`src/proto.rs` の要求と応答。wire 上の CBOR は扱わず、復号された値から始める。
-/

namespace SecretBunker

/-- `PERM_READ`。 -/
def permRead : UInt8 := 1

/-- `PERM_WRITE`。 -/
def permWrite : UInt8 := 2

/-- `PERM_ADMIN`。 -/
def permAdmin : UInt8 := 4

/-- bit が立っているか（`perms & bit != 0`）。 -/
def hasBit (perms bit : UInt8) : Bool := perms &&& bit != 0

/-- client の送る要求。 -/
inductive Request where
  | get (group name : String)
  /-- `expectedVersion` が 0 なら「まだ無いこと」を求める。 -/
  | put (group name : String) (value : Bytes) (expectedVersion : UInt64)
  | delete (group name : String) (expectedVersion : UInt64)
  | list (group : String)
  | createGroup (name : String)
  | addIdentity (name endpointId : String) (serviceAdmin : Bool)
  | removeIdentity (name : String)
  | listIdentities
  /-- `identity` の `group` での許可を `perms` にする。0 は取り消しである。 -/
  | grant (group identity : String) (perms : UInt8)
  | rotateDek (group : String)
  | listGroups
  | groupAcl (group : String)
  | listIdentityNames (group : String)
  | setServiceAdmin (name : String) (serviceAdmin : Bool)
  deriving DecidableEq

namespace Request

/-- audit log に残す操作名。 -/
def op : Request → String
  | get .. => "get"
  | put .. => "put"
  | delete .. => "delete"
  | list .. => "list"
  | createGroup .. => "create-group"
  | addIdentity .. => "add-identity"
  | removeIdentity .. => "remove-identity"
  | listIdentities => "list-identities"
  | grant .. => "grant"
  | rotateDek .. => "rotate-dek"
  | listGroups => "list-groups"
  | groupAcl .. => "group-acl"
  | listIdentityNames .. => "list-identity-names"
  | setServiceAdmin .. => "set-service-admin"

/-- audit log に残す対象。 -/
def target : Request → String
  | get group name => group ++ "/" ++ name
  | put group name _ _ => group ++ "/" ++ name
  | delete group name _ => group ++ "/" ++ name
  | list group => group
  | rotateDek group => group
  | groupAcl group => group
  | listIdentityNames group => group
  | createGroup name => name
  | addIdentity name _ _ => name
  | removeIdentity name => name
  | setServiceAdmin name _ => name
  | listIdentities => ""
  | listGroups => ""
  | grant group identity _ => group ++ ":" ++ identity

end Request

/-- ListGroups の一行。 -/
structure GroupInfo where
  name : String
  perms : UInt8
  deriving DecidableEq

/-- ListIdentities の一行。 -/
structure IdentityInfo where
  name : String
  endpointId : String
  serviceAdmin : Bool
  deriving DecidableEq

/-- server の答え。 -/
inductive Response where
  /-- 一様な拒否。未登録、権限不足、対象なしを区別しない。 -/
  | denied
  | ok
  | secret (value : Bytes) (version : Nat)
  | version (version : Nat)
  | versionConflict (current : Nat)
  | names (names : List (String × Nat))
  | identities (ids : List IdentityInfo)
  | groups (serviceAdmin : Bool) (groups : List GroupInfo)
  | acl (entries : List (String × UInt8))
  | identityNames (names : List String)
  | failed (reason : String)
  | readOnlyReplica (authoritative : String)
  deriving DecidableEq

end SecretBunker
