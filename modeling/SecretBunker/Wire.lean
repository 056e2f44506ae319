import SecretBunker.Lib.Cbor
import SecretBunker.Proto
import SecretBunker.Sync

/-!
# wire の上の message

`src/proto.rs` の `encode` と `src/sync.rs` の `frame`。どの message も serde の外側に札の付いた enum
として CBOR に書き出される。札の無い枝は名前だけの文字列になる。

長さの上限は二つある。client の stream は `MAX_MSG`、sync の frame は `SYNC_MAX_MSG` で、どちらも
CBOR に書き出した長さを見る。
-/

namespace SecretBunker

open Cbor

/-- client の stream の、一方向の上限。 -/
def maxMsg : Nat := 4 * 1024 * 1024

/-- sync の frame の中身の上限。 -/
def syncMaxMsg : Nat := 8 * 1024 * 1024

/-! ## client の message -/

/-- 要求の CBOR。 -/
def Request.encode : Request → Bytes
  | .get group name =>
    variant "Get" (map [("group", textString group), ("name", textString name)])
  | .put group name value expectedVersion =>
    variant "Put" (map [("group", textString group), ("name", textString name),
      ("value", byteString value), ("expected_version", unsigned expectedVersion.toNat)])
  | .delete group name expectedVersion =>
    variant "Delete" (map [("group", textString group), ("name", textString name),
      ("expected_version", unsigned expectedVersion.toNat)])
  | .list group => variant "List" (map [("group", textString group)])
  | .createGroup name => variant "CreateGroup" (map [("name", textString name)])
  | .addIdentity name endpointId serviceAdmin =>
    variant "AddIdentity" (map [("name", textString name), ("endpoint_id", textString endpointId),
      ("service_admin", boolean serviceAdmin)])
  | .removeIdentity name => variant "RemoveIdentity" (map [("name", textString name)])
  | .listIdentities => textString "ListIdentities"
  | .grant group identity perms =>
    variant "Grant" (map [("group", textString group), ("identity", textString identity),
      ("perms", unsigned perms.toNat)])
  | .rotateDek group => variant "RotateDek" (map [("group", textString group)])
  | .listGroups => textString "ListGroups"
  | .groupAcl group => variant "GroupAcl" (map [("group", textString group)])
  | .listIdentityNames group => variant "ListIdentityNames" (map [("group", textString group)])
  | .setServiceAdmin name serviceAdmin =>
    variant "SetServiceAdmin"
      (map [("name", textString name), ("service_admin", boolean serviceAdmin)])

/-- `GroupInfo` の CBOR。 -/
def GroupInfo.encode (g : GroupInfo) : Bytes :=
  map [("name", textString g.name), ("perms", unsigned g.perms.toNat)]

/-- `IdentityInfo` の CBOR。 -/
def IdentityInfo.encode (i : IdentityInfo) : Bytes :=
  map [("name", textString i.name), ("endpoint_id", textString i.endpointId),
    ("service_admin", boolean i.serviceAdmin)]

/-- 答えの CBOR。 -/
def Response.encode : Response → Bytes
  | .denied => textString "Denied"
  | .ok => textString "Ok"
  | .secret value v =>
    variant "Secret" (map [("value", byteString value), ("version", unsigned v)])
  | .version v => variant "Version" (map [("version", unsigned v)])
  | .versionConflict current => variant "VersionConflict" (map [("current", unsigned current)])
  | .names entries =>
    variant "Names" (array (entries.map fun n => array [textString n.1, unsigned n.2]))
  | .identities ids => variant "Identities" (array (ids.map IdentityInfo.encode))
  | .groups serviceAdmin infos =>
    variant "Groups" (map [("service_admin", boolean serviceAdmin),
      ("groups", array (infos.map GroupInfo.encode))])
  | .acl entries =>
    variant "Acl" (array (entries.map fun e => array [textString e.1, unsigned e.2.toNat]))
  | .identityNames ids => variant "IdentityNames" (array (ids.map textString))
  | .failed reason => variant "Failed" (map [("reason", textString reason)])
  | .readOnlyReplica authoritative =>
    variant "ReadOnlyReplica" (map [("authoritative", textString authoritative)])

-- `wire_format_is_stable` に並ぶ値
example : (Request.put "g" "n" [1, 2, 255] 300).encode =
    [0xa1, 0x63, 0x50, 0x75, 0x74, 0xa4, 0x65, 0x67, 0x72, 0x6f, 0x75, 0x70, 0x61, 0x67, 0x64,
      0x6e, 0x61, 0x6d, 0x65, 0x61, 0x6e, 0x65, 0x76, 0x61, 0x6c, 0x75, 0x65, 0x43, 0x01, 0x02,
      0xff, 0x70, 0x65, 0x78, 0x70, 0x65, 0x63, 0x74, 0x65, 0x64, 0x5f, 0x76, 0x65, 0x72, 0x73,
      0x69, 0x6f, 0x6e, 0x19, 0x01, 0x2c] := by decide

example : (Response.secret [0x68, 0x69] 128).encode =
    [0xa1, 0x66, 0x53, 0x65, 0x63, 0x72, 0x65, 0x74, 0xa2, 0x65, 0x76, 0x61, 0x6c, 0x75, 0x65,
      0x42, 0x68, 0x69, 0x67, 0x76, 0x65, 0x72, 0x73, 0x69, 0x6f, 0x6e, 0x18, 0x80] := by decide

/-! ## sync の message -/

/-- `AclEntry` の CBOR。 -/
def AclEntry.encode (e : AclEntry) : Bytes :=
  map [("identity_name", textString e.identityName), ("endpoint_id", textString e.endpointId),
    ("perms", unsigned e.perms.toNat)]

/-- `DekEntry` の CBOR。 -/
def DekEntry.encode (d : DekEntry) : Bytes :=
  map [("version", unsigned d.version), ("wrapped", byteString d.wrapped)]

/-- `SecretEntry` の CBOR。 -/
def SecretEntry.encode (e : SecretEntry) : Bytes :=
  map [("name", textString e.name), ("current_version", unsigned e.currentVersion),
    ("dek_version", unsigned e.dekVersion), ("nonce", byteString e.nonce)]

/-- 同期の要求の CBOR。 -/
def SyncRequest.encode : SyncRequest → Bytes
  | .hello => textString "Hello"
  | .fetchGroup group => variant "FetchGroup" (map [("group", textString group)])
  | .fetchSecrets group names =>
    variant "FetchSecrets"
      (map [("group", textString group), ("names", array (names.map textString))])

/-- 同期の message の CBOR。 -/
def SyncMessage.encode : SyncMessage → Bytes
  | .syncDenied => textString "SyncDenied"
  | .group name acl deks =>
    variant "Group" (map [("name", textString name), ("acl", array (acl.map AclEntry.encode)),
      ("deks", array (deks.map DekEntry.encode))])
  | .groupSecrets name secrets =>
    variant "GroupSecrets" (map [("group", textString name),
      ("secrets", array (secrets.map SecretEntry.encode))])
  | .manifestDone => textString "ManifestDone"
  | .fetchDone => textString "FetchDone"
  | .changed name => variant "Changed" (map [("group", textString name)])
  | .scopeChanged => textString "ScopeChanged"
  | .secretData s =>
    variant "SecretData" (map [("name", textString s.name), ("version", unsigned s.version),
      ("dek_version", unsigned s.dekVersion), ("nonce", byteString s.nonce),
      ("ciphertext", byteString s.ciphertext), ("created_at", integer s.createdAt),
      ("created_by", textString s.createdBy)])

example : (SyncMessage.group "g" [⟨"a", "e", 1⟩] [⟨1, [0xab]⟩]).encode =
    [0xa1, 0x65, 0x47, 0x72, 0x6f, 0x75, 0x70, 0xa3, 0x64, 0x6e, 0x61, 0x6d, 0x65, 0x61, 0x67,
      0x63, 0x61, 0x63, 0x6c, 0x81, 0xa3, 0x6d, 0x69, 0x64, 0x65, 0x6e, 0x74, 0x69, 0x74, 0x79,
      0x5f, 0x6e, 0x61, 0x6d, 0x65, 0x61, 0x61, 0x6b, 0x65, 0x6e, 0x64, 0x70, 0x6f, 0x69, 0x6e,
      0x74, 0x5f, 0x69, 0x64, 0x61, 0x65, 0x65, 0x70, 0x65, 0x72, 0x6d, 0x73, 0x01, 0x64, 0x64,
      0x65, 0x6b, 0x73, 0x81, 0xa2, 0x67, 0x76, 0x65, 0x72, 0x73, 0x69, 0x6f, 0x6e, 0x01, 0x67,
      0x77, 0x72, 0x61, 0x70, 0x70, 0x65, 0x64, 0x41, 0xab] := by decide

/-! ## frame -/

/-- frame の長さの上限。 -/
def checkCap (len : Nat) : Bool := len ≤ syncMaxMsg

/-- 長さを前に付けた message。中身が上限を超えれば、何も書かずに失敗する。 -/
def frame {α : Type} (encode : α → Bytes) (msg : α) : Option Bytes :=
  if checkCap (encode msg).length then some (beBytes 4 (encode msg).length ++ encode msg) else none

theorem frame_isSome_iff {α : Type} {encode : α → Bytes} {msg : α} :
    (frame encode msg).isSome ↔ (encode msg).length ≤ syncMaxMsg := by
  unfold frame checkCap
  split
  · next h => exact iff_of_true rfl (by simpa using h)
  · next h => exact iff_of_false Bool.false_ne_true (by simpa using h)

end SecretBunker
