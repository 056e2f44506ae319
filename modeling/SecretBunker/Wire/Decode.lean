import SecretBunker.Lib.CborRead
import SecretBunker.Wire

/-!
# wire の message の復号

`src/proto.rs` の `decode`。`ciborium` は先頭の item を値に読み、serde の導いた復号が値から型を作る。
field は名前で引くので順序を問わず、知らない名前の field は読み飛ばす。同じ名前が二度現れるものと、足りない
ものは誤りである。item の後に残った byte は見ない。

どの message も、書き出したものを復号すると元に戻る。数は Rust の型の幅に収まっていることを求める。
-/

namespace SecretBunker

open Cbor

/-- `ciborium::de::from_reader` の入れ子の上限。 -/
def recursionLimit : Nat := 256

/-- 先頭の item を読み、`ofValue` で型にする。`ciborium` の受け入れるもののうち、`Cbor.read` の読む形だけを
読む。拒むことには意味が無く、読めたときの値だけを使う。 -/
def decode {α : Type} (ofValue : Value → Option α) (bytes : Bytes) : Option α :=
  (read recursionLimit bytes).bind fun r => ofValue r.1

/-- 読み戻せる符号は、後に何が続いても復号できる。 -/
theorem decode_append {α : Type} {ofValue : Value → Option α} {code : Bytes} {v : Value} {a : α}
    (h : ReadsBack recursionLimit code v) (hlen : code.length < 2 ^ 64) (ha : ofValue v = some a)
    (rest : Bytes) : decode ofValue (code ++ rest) = some a := by
  rw [decode, h hlen rest, Option.bind_some, ha]

/-- 実際の復号器 `reader` は、書き出したものを `decode` と同じに読み戻す。ほかの byte の列については何も
求めない。 -/
def Decodes {α : Type} (reader : Bytes → Option α) (encode : α → Bytes)
    (ofValue : Value → Option α) : Prop :=
  ∀ msg, decode ofValue (encode msg) = some msg → reader (encode msg) = some msg

/-! ## field -/

/-- `u64`。 -/
def u64? (v : Value) : Option UInt64 := (v.toNat? (2 ^ 64)).map UInt64.ofNat

/-- `u8` に収まる整数。 -/
def u8? (v : Value) : Option UInt8 := (v.toNat? (2 ^ 8)).map UInt8.ofNat

/-- model が自然数で持つ `u64`。 -/
def version? (v : Value) : Option Nat := v.toNat? (2 ^ 64)

@[simp] theorem u64?_unsigned (v : UInt64) : u64? (.unsigned v.toNat) = some v := by
  rw [u64?, Value.toNat?_unsigned v.toNat_lt, Option.map_some, UInt64.ofNat_toNat]

@[simp] theorem u8?_unsigned (v : UInt8) : u8? (.unsigned v.toNat) = some v := by
  rw [u8?, Value.toNat?_unsigned v.toNat_lt, Option.map_some, UInt8.ofNat_toNat]

@[simp] theorem version?_unsigned {n : Nat} (h : n < 2 ^ 64) : version? (.unsigned n) = some n :=
  Value.toNat?_unsigned h

@[simp] theorem readsBack_u64 {k : Nat} (v : UInt64) :
    ReadsBack (k + 1) (unsigned v.toNat) (.unsigned v.toNat) := .unsigned v.toNat_lt

@[simp] theorem readsBack_u8 {k : Nat} (v : UInt8) :
    ReadsBack (k + 1) (unsigned v.toNat) (.unsigned v.toNat) :=
  .unsigned (v.toNat_lt.trans (by decide))

/-- 読み取った field。 -/
abbrev Fields := List (String × Value)

/-- 名前で引いた field を、型に合わせて読む。 -/
def Fields.get {α : Type} (fields : Fields) (name : String) (as : Value → Option α) : Option α :=
  (Value.field? name fields).bind as

@[simp] theorem Fields.get_cons {α : Type} (f : String × Value) (fields : Fields) (name : String)
    (as : Value → Option α) :
    Fields.get (f :: fields) name as =
      if f.1 = name then (if fields.any fun g => g.1 = name then none else as f.2)
      else fields.get name as := by
  rw [Fields.get, Value.field?]
  by_cases h : f.1 = name
  · rw [if_pos h, if_pos h]
    split <;> rfl
  · rw [if_neg h, if_neg h]
    rfl

namespace Fields

variable (fields : Fields) (name : String)

/-- 文字列の欄。 -/
@[simp] def text : Option String := fields.get name Value.toText?

/-- bytes の欄。 -/
@[simp] def bytes : Option Bytes := fields.get name Value.toBytes?

/-- 真偽の欄。 -/
@[simp] def boolean : Option Bool := fields.get name Value.toBoolean?

/-- `u64` の欄。 -/
@[simp] def u64 : Option UInt64 := fields.get name u64?

/-- `u8` の欄。 -/
@[simp] def u8 : Option UInt8 := fields.get name u8?

/-- version の欄。 -/
@[simp] def version : Option Nat := fields.get name version?

/-- `i64` の欄。 -/
@[simp] def i64 : Option Int := fields.get name Value.toInt64?

/-- 列の欄。 -/
@[simp] def list {α : Type} (item : Value → Option α) : Option (List α) :=
  fields.get name (Value.toList? item)

end Fields

/-! ## client の要求 -/

namespace Request

def toValue : Request → Value
  | get group name => .tagged "Get" (.record [("group", .text group), ("name", .text name)])
  | put group name value expectedVersion =>
    .tagged "Put" (.record [("group", .text group), ("name", .text name), ("value", .bytes value),
      ("expected_version", .unsigned expectedVersion.toNat)])
  | delete group name expectedVersion =>
    .tagged "Delete" (.record [("group", .text group), ("name", .text name),
      ("expected_version", .unsigned expectedVersion.toNat)])
  | list group => .tagged "List" (.record [("group", .text group)])
  | createGroup name => .tagged "CreateGroup" (.record [("name", .text name)])
  | addIdentity name endpointId serviceAdmin =>
    .tagged "AddIdentity" (.record [("name", .text name), ("endpoint_id", .text endpointId),
      ("service_admin", .boolean serviceAdmin)])
  | removeIdentity name => .tagged "RemoveIdentity" (.record [("name", .text name)])
  | listIdentities => .text "ListIdentities"
  | grant group identity perms =>
    .tagged "Grant" (.record [("group", .text group), ("identity", .text identity),
      ("perms", .unsigned perms.toNat)])
  | rotateDek group => .tagged "RotateDek" (.record [("group", .text group)])
  | listGroups => .text "ListGroups"
  | groupAcl group => .tagged "GroupAcl" (.record [("group", .text group)])
  | listIdentityNames group => .tagged "ListIdentityNames" (.record [("group", .text group)])
  | setServiceAdmin name serviceAdmin =>
    .tagged "SetServiceAdmin"
      (.record [("name", .text name), ("service_admin", .boolean serviceAdmin)])

/-- field を並べた枝。 -/
def ofFields (tag : String) (fields : Fields) : Option Request :=
  if tag = "Get" then get <$> fields.text "group" <*> fields.text "name"
  else if tag = "Put" then
    put <$> fields.text "group" <*> fields.text "name" <*> fields.bytes "value" <*>
      fields.u64 "expected_version"
  else if tag = "Delete" then
    delete <$> fields.text "group" <*> fields.text "name" <*> fields.u64 "expected_version"
  else if tag = "List" then list <$> fields.text "group"
  else if tag = "CreateGroup" then createGroup <$> fields.text "name"
  else if tag = "AddIdentity" then
    addIdentity <$> fields.text "name" <*> fields.text "endpoint_id" <*>
      fields.boolean "service_admin"
  else if tag = "RemoveIdentity" then removeIdentity <$> fields.text "name"
  else if tag = "Grant" then
    grant <$> fields.text "group" <*> fields.text "identity" <*> fields.u8 "perms"
  else if tag = "RotateDek" then rotateDek <$> fields.text "group"
  else if tag = "GroupAcl" then groupAcl <$> fields.text "group"
  else if tag = "ListIdentityNames" then listIdentityNames <$> fields.text "group"
  else if tag = "SetServiceAdmin" then
    setServiceAdmin <$> fields.text "name" <*> fields.boolean "service_admin"
  else none

/-- 名前だけの枝。 -/
def ofName (tag : String) : Option Request :=
  if tag = "ListIdentities" then some listIdentities
  else if tag = "ListGroups" then some listGroups
  else none

def ofValue (v : Value) : Option Request :=
  v.variant?.bind fun tag =>
    match tag.2 with
    | none => ofName tag.1
    | some body => body.ofRecord (ofFields tag.1)

@[simp] theorem ofValue_tagged (tag : String) (fields : Fields) :
    ofValue (.tagged tag (.record fields)) = ofFields tag fields := by
  simp [ofValue]

@[simp] theorem ofValue_text (tag : String) : ofValue (.text tag) = ofName tag := rfl

theorem ofValue_toValue (req : Request) : ofValue req.toValue = some req := by
  cases req <;>
    simp [toValue, ofName, ofFields]

theorem readsBack_encode {k : Nat} (req : Request) : ReadsBack (k + 3) req.encode req.toValue := by
  cases req with
  | listIdentities => exact .textString _
  | listGroups => exact .textString _
  | _ => exact .variant (.record (by simp))

/-- **要求の往復。** 2^64 byte に満たない要求を書き出したものは、後に何が続いても元の要求に復号される。 -/
theorem decode_encode (req : Request) (h : req.encode.length < 2 ^ 64) (rest : Bytes) :
    decode ofValue (req.encode ++ rest) = some req :=
  decode_append req.readsBack_encode h req.ofValue_toValue rest

end Request

/-! ## client の応答 -/

namespace GroupInfo

def toValue (g : GroupInfo) : Value :=
  .record [("name", .text g.name), ("perms", .unsigned g.perms.toNat)]

def ofFields (fields : Fields) : Option GroupInfo :=
  mk <$> fields.text "name" <*> fields.u8 "perms"

theorem ofRecord_toValue (g : GroupInfo) : g.toValue.ofRecord ofFields = some g := by
  simp [toValue, ofFields]

theorem readsBack_encode {k : Nat} (g : GroupInfo) : ReadsBack (k + 2) g.encode g.toValue :=
  .record (by simp)

end GroupInfo

namespace IdentityInfo

def toValue (i : IdentityInfo) : Value :=
  .record [("name", .text i.name), ("endpoint_id", .text i.endpointId),
    ("service_admin", .boolean i.serviceAdmin)]

def ofFields (fields : Fields) : Option IdentityInfo :=
  mk <$> fields.text "name" <*> fields.text "endpoint_id" <*> fields.boolean "service_admin"

theorem ofRecord_toValue (i : IdentityInfo) : i.toValue.ofRecord ofFields = some i := by
  simp [toValue, ofFields]

theorem readsBack_encode {k : Nat} (i : IdentityInfo) : ReadsBack (k + 2) i.encode i.toValue :=
  .record (by simp)

end IdentityInfo

namespace Response

def toValue : Response → Value
  | denied => .text "Denied"
  | ok => .text "Ok"
  | secret value v => .tagged "Secret" (.record [("value", .bytes value), ("version", .unsigned v)])
  | version v => .tagged "Version" (.record [("version", .unsigned v)])
  | versionConflict current =>
    .tagged "VersionConflict" (.record [("current", .unsigned current)])
  | names entries =>
    .tagged "Names" (.array (entries.map fun n => .array [.text n.1, .unsigned n.2]))
  | identities ids => .tagged "Identities" (.array (ids.map IdentityInfo.toValue))
  | groups serviceAdmin infos =>
    .tagged "Groups" (.record [("service_admin", .boolean serviceAdmin),
      ("groups", .array (infos.map GroupInfo.toValue))])
  | acl entries =>
    .tagged "Acl" (.array (entries.map fun e => .array [.text e.1, .unsigned e.2.toNat]))
  | identityNames ids => .tagged "IdentityNames" (.array (ids.map .text))
  | failed reason => .tagged "Failed" (.record [("reason", .text reason)])
  | readOnlyReplica authoritative =>
    .tagged "ReadOnlyReplica" (.record [("authoritative", .text authoritative)])

/-- field を並べた枝。 -/
def ofFields (tag : String) (fields : Fields) : Option Response :=
  if tag = "Secret" then secret <$> fields.bytes "value" <*> fields.version "version"
  else if tag = "Version" then version <$> fields.version "version"
  else if tag = "VersionConflict" then versionConflict <$> fields.version "current"
  else if tag = "Groups" then
    groups <$> fields.boolean "service_admin" <*> fields.list "groups" (Value.ofRecord GroupInfo.ofFields)
  else if tag = "Failed" then failed <$> fields.text "reason"
  else if tag = "ReadOnlyReplica" then readOnlyReplica <$> fields.text "authoritative"
  else none

/-- 中身を一つ持つ枝は、その中身をじかに読む。 -/
def ofBody (tag : String) (body : Value) : Option Response :=
  if tag = "Names" then names <$> body.toList? (Value.toPair? Value.toText? version?)
  else if tag = "Identities" then identities <$> body.toList? (Value.ofRecord IdentityInfo.ofFields)
  else if tag = "Acl" then acl <$> body.toList? (Value.toPair? Value.toText? u8?)
  else if tag = "IdentityNames" then identityNames <$> body.toList? Value.toText?
  else body.ofRecord (ofFields tag)

/-- 名前だけの枝。 -/
def ofName (tag : String) : Option Response :=
  if tag = "Denied" then some denied else if tag = "Ok" then some ok else none

def ofValue (v : Value) : Option Response :=
  v.variant?.bind fun tag =>
    match tag.2 with
    | none => ofName tag.1
    | some body => ofBody tag.1 body

@[simp] theorem ofValue_tagged (tag : String) (body : Value) :
    ofValue (.tagged tag body) = ofBody tag body := rfl

@[simp] theorem ofValue_text (tag : String) : ofValue (.text tag) = ofName tag := rfl

/-- version が `u64` に収まる。 -/
def InRange : Response → Prop
  | secret _ v => v < 2 ^ 64
  | version v => v < 2 ^ 64
  | versionConflict current => current < 2 ^ 64
  | names entries => ∀ n ∈ entries, n.2 < 2 ^ 64
  | _ => True

theorem ofValue_toValue {resp : Response} (h : resp.InRange) :
    ofValue resp.toValue = some resp := by
  cases resp with
  | names entries =>
    have hitems : Value.toList? (Value.toPair? Value.toText? version?)
        (.array (entries.map fun n => .array [.text n.1, .unsigned n.2])) = some entries :=
      Value.toList?_map fun n hn => by
        simp [Value.toPair?, version?_unsigned (h n hn)]
    simp [toValue, ofBody, hitems]
  | identities ids =>
    simp [toValue, ofBody, Value.toList?_map fun i _ => IdentityInfo.ofRecord_toValue i]
  | groups serviceAdmin infos =>
    simp [toValue, ofBody, ofFields, Value.toList?_map fun g _ => GroupInfo.ofRecord_toValue g]
  | acl entries =>
    have hitems : Value.toList? (Value.toPair? Value.toText? u8?)
        (.array (entries.map fun e => .array [.text e.1, .unsigned e.2.toNat])) = some entries :=
      Value.toList?_map fun e _ => by simp [Value.toPair?]
    simp [toValue, ofBody, hitems]
  | identityNames ids =>
    have hitems : Value.toList? Value.toText? (.array (ids.map .text)) = some ids :=
      Value.toList?_map fun _ _ => rfl
    simp [toValue, ofBody, hitems]
  | secret value v =>
    simp [toValue, ofBody, ofFields, version?_unsigned h]
  | version v =>
    simp [toValue, ofBody, ofFields, version?_unsigned h]
  | versionConflict current =>
    simp [toValue, ofBody, ofFields, version?_unsigned h]
  | _ =>
    simp [toValue, ofName, ofBody, ofFields]

theorem readsBack_encode {k : Nat} {resp : Response} (h : resp.InRange) :
    ReadsBack (k + 5) resp.encode resp.toValue := by
  cases resp with
  | denied => exact .textString _
  | ok => exact .textString _
  | names entries =>
    refine .variant (.list fun n hn => .array ?_)
    simp [ReadsBack.unsigned (h n hn)]
  | identities ids => exact .variant (.list fun i _ => i.readsBack_encode)
  | groups serviceAdmin infos =>
    have hinfos : ReadsBack (k + 3) (array (infos.map GroupInfo.encode))
        (.array (infos.map GroupInfo.toValue)) := .list fun g _ => g.readsBack_encode
    exact .variant (.record (by simp [hinfos]))
  | acl entries =>
    refine .variant (.list fun e _ => .array ?_)
    simp
  | identityNames ids => exact .variant (.list fun _ _ => .textString _)
  | secret value v => exact .variant (.record (by simp [ReadsBack.unsigned h]))
  | version v => exact .variant (.record (by simp [ReadsBack.unsigned h]))
  | versionConflict current => exact .variant (.record (by simp [ReadsBack.unsigned h]))
  | failed reason => exact .variant (.record (by simp))
  | readOnlyReplica authoritative => exact .variant (.record (by simp))

/-- **応答の往復。** -/
theorem decode_encode {resp : Response} (hr : resp.InRange) (h : resp.encode.length < 2 ^ 64)
    (rest : Bytes) : decode ofValue (resp.encode ++ rest) = some resp :=
  decode_append (readsBack_encode hr) h (ofValue_toValue hr) rest

end Response

/-! ## sync の message -/

namespace AclEntry

def toValue (e : AclEntry) : Value :=
  .record [("identity_name", .text e.identityName), ("endpoint_id", .text e.endpointId),
    ("perms", .unsigned e.perms.toNat)]

def ofFields (fields : Fields) : Option AclEntry :=
  mk <$> fields.text "identity_name" <*> fields.text "endpoint_id" <*> fields.u8 "perms"

theorem ofRecord_toValue (e : AclEntry) : e.toValue.ofRecord ofFields = some e := by
  simp [toValue, ofFields]

theorem readsBack_encode {k : Nat} (e : AclEntry) : ReadsBack (k + 2) e.encode e.toValue :=
  .record (by simp)

end AclEntry

namespace DekEntry

def toValue (d : DekEntry) : Value :=
  .record [("version", .unsigned d.version), ("wrapped", .bytes d.wrapped)]

def ofFields (fields : Fields) : Option DekEntry :=
  mk <$> fields.version "version" <*> fields.bytes "wrapped"

def InRange (d : DekEntry) : Prop := d.version < 2 ^ 64

theorem ofRecord_toValue {d : DekEntry} (h : d.InRange) : d.toValue.ofRecord ofFields = some d := by
  simp [toValue, ofFields, version?_unsigned h]

theorem readsBack_encode {k : Nat} {d : DekEntry} (h : d.InRange) :
    ReadsBack (k + 2) d.encode d.toValue :=
  .record (by simp [ReadsBack.unsigned h])

end DekEntry

namespace SecretEntry

def toValue (e : SecretEntry) : Value :=
  .record [("name", .text e.name), ("current_version", .unsigned e.currentVersion),
    ("dek_version", .unsigned e.dekVersion), ("nonce", .bytes e.nonce)]

def ofFields (fields : Fields) : Option SecretEntry :=
  mk <$> fields.text "name" <*> fields.version "current_version" <*>
    fields.version "dek_version" <*> fields.bytes "nonce"

def InRange (e : SecretEntry) : Prop := e.currentVersion < 2 ^ 64 ∧ e.dekVersion < 2 ^ 64

theorem ofRecord_toValue {e : SecretEntry} (h : e.InRange) :
    e.toValue.ofRecord ofFields = some e := by
  simp [toValue, ofFields, version?_unsigned h.1, version?_unsigned h.2]

theorem readsBack_encode {k : Nat} {e : SecretEntry} (h : e.InRange) :
    ReadsBack (k + 2) e.encode e.toValue :=
  .record (by simp [ReadsBack.unsigned h.1, ReadsBack.unsigned h.2])

end SecretEntry

namespace FetchedSecret

def toValue (s : FetchedSecret) : Value :=
  .record [("name", .text s.name), ("version", .unsigned s.version),
    ("dek_version", .unsigned s.dekVersion), ("nonce", .bytes s.nonce),
    ("ciphertext", .bytes s.ciphertext), ("created_at", .integer s.createdAt),
    ("created_by", .text s.createdBy)]

def ofFields (fields : Fields) : Option FetchedSecret := do
  let name ← fields.text "name"
  let row ← SecretDataRow.mk <$> fields.version "version" <*> fields.version "dek_version" <*>
    fields.bytes "nonce" <*> fields.bytes "ciphertext" <*> fields.i64 "created_at" <*>
    fields.text "created_by"
  some ⟨row, name⟩

structure InRange (s : FetchedSecret) : Prop where
  version : s.version < 2 ^ 64
  dekVersion : s.dekVersion < 2 ^ 64
  after : -2 ^ 63 ≤ s.createdAt
  before : s.createdAt < 2 ^ 63

end FetchedSecret

namespace SyncRequest

def toValue : SyncRequest → Value
  | hello => .text "Hello"
  | fetchGroup group => .tagged "FetchGroup" (.record [("group", .text group)])
  | fetchSecrets group names =>
    .tagged "FetchSecrets" (.record [("group", .text group), ("names", .array (names.map .text))])

def ofFields (tag : String) (fields : Fields) : Option SyncRequest :=
  if tag = "FetchGroup" then fetchGroup <$> fields.text "group"
  else if tag = "FetchSecrets" then
    fetchSecrets <$> fields.text "group" <*> fields.list "names" Value.toText?
  else none

def ofValue (v : Value) : Option SyncRequest :=
  v.variant?.bind fun tag =>
    match tag.2 with
    | none => if tag.1 = "Hello" then some hello else none
    | some body => body.ofRecord (ofFields tag.1)

@[simp] theorem ofValue_tagged (tag : String) (fields : Fields) :
    ofValue (.tagged tag (.record fields)) = ofFields tag fields := by
  simp [ofValue]

theorem ofValue_toValue (req : SyncRequest) : ofValue req.toValue = some req := by
  cases req with
  | hello => simp [toValue, ofValue]
  | fetchGroup group =>
    simp [toValue, ofFields]
  | fetchSecrets group names =>
    have hnames : Value.toList? Value.toText? (.array (names.map .text)) = some names :=
      Value.toList?_map fun _ _ => rfl
    simp [toValue, ofFields, hnames]

theorem readsBack_encode {k : Nat} (req : SyncRequest) : ReadsBack (k + 4) req.encode req.toValue := by
  cases req with
  | hello => exact .textString _
  | fetchGroup group => exact .variant (.record (by simp))
  | fetchSecrets group names =>
    have hnames : ReadsBack (k + 2) (array (names.map textString)) (.array (names.map .text)) :=
      .list fun _ _ => .textString _
    exact .variant (.record (by simp [hnames]))

end SyncRequest

namespace SyncMessage

def toValue : SyncMessage → Value
  | syncDenied => .text "SyncDenied"
  | group name acl deks =>
    .tagged "Group" (.record [("name", .text name), ("acl", .array (acl.map AclEntry.toValue)),
      ("deks", .array (deks.map DekEntry.toValue))])
  | groupSecrets name secrets =>
    .tagged "GroupSecrets" (.record [("group", .text name),
      ("secrets", .array (secrets.map SecretEntry.toValue))])
  | manifestDone => .text "ManifestDone"
  | fetchDone => .text "FetchDone"
  | changed name => .tagged "Changed" (.record [("group", .text name)])
  | scopeChanged => .text "ScopeChanged"
  | secretData s => .tagged "SecretData" s.toValue

def ofFields (tag : String) (fields : Fields) : Option SyncMessage :=
  if tag = "Group" then
    group <$> fields.text "name" <*> fields.list "acl" (Value.ofRecord AclEntry.ofFields) <*>
      fields.list "deks" (Value.ofRecord DekEntry.ofFields)
  else if tag = "GroupSecrets" then
    groupSecrets <$> fields.text "group" <*>
      fields.list "secrets" (Value.ofRecord SecretEntry.ofFields)
  else if tag = "Changed" then changed <$> fields.text "group"
  else if tag = "SecretData" then secretData <$> FetchedSecret.ofFields fields
  else none

def ofName (tag : String) : Option SyncMessage :=
  if tag = "SyncDenied" then some syncDenied
  else if tag = "ManifestDone" then some manifestDone
  else if tag = "FetchDone" then some fetchDone
  else if tag = "ScopeChanged" then some scopeChanged
  else none

def ofValue (v : Value) : Option SyncMessage :=
  v.variant?.bind fun tag =>
    match tag.2 with
    | none => ofName tag.1
    | some body => body.ofRecord (ofFields tag.1)

@[simp] theorem ofValue_tagged (tag : String) (fields : Fields) :
    ofValue (.tagged tag (.record fields)) = ofFields tag fields := by
  simp [ofValue]

@[simp] theorem ofValue_text (tag : String) : ofValue (.text tag) = ofName tag := rfl

/-- 数が Rust の型に収まる。 -/
def InRange : SyncMessage → Prop
  | group _ _ deks => ∀ d ∈ deks, d.InRange
  | groupSecrets _ secrets => ∀ e ∈ secrets, e.InRange
  | secretData s => s.InRange
  | _ => True

theorem ofValue_toValue {msg : SyncMessage} (h : msg.InRange) :
    ofValue msg.toValue = some msg := by
  cases msg with
  | group name acl deks =>
    simp [toValue, ofFields, Value.toList?_map fun e _ => AclEntry.ofRecord_toValue e,
      Value.toList?_map fun d hd => DekEntry.ofRecord_toValue (h d hd)]
  | groupSecrets name secrets =>
    simp [toValue, ofFields, Value.toList?_map fun e he => SecretEntry.ofRecord_toValue (h e he)]
  | secretData s =>
    have hs : FetchedSecret.InRange s := h
    simp [toValue, FetchedSecret.toValue, ofFields, FetchedSecret.ofFields,
      version?_unsigned hs.version, version?_unsigned hs.dekVersion,
      Value.toInt64?_integer hs.after hs.before]
  | changed name =>
    simp [toValue, ofFields]
  | _ => simp [toValue, ofName]

theorem readsBack_encode {k : Nat} {msg : SyncMessage} (h : msg.InRange) :
    ReadsBack (k + 5) msg.encode msg.toValue := by
  cases msg with
  | group name acl deks =>
    have hacl : ReadsBack (k + 3) (array (acl.map AclEntry.encode))
        (.array (acl.map AclEntry.toValue)) := .list fun e _ => e.readsBack_encode
    have hdeks : ReadsBack (k + 3) (array (deks.map DekEntry.encode))
        (.array (deks.map DekEntry.toValue)) := .list fun d hd => DekEntry.readsBack_encode (h d hd)
    exact .variant (.record (by simp [hacl, hdeks]))
  | groupSecrets name secrets =>
    have hsecrets : ReadsBack (k + 3) (array (secrets.map SecretEntry.encode))
        (.array (secrets.map SecretEntry.toValue)) :=
      .list fun e he => SecretEntry.readsBack_encode (h e he)
    exact .variant (.record (by simp [hsecrets]))
  | secretData s =>
    have hs : FetchedSecret.InRange s := h
    exact .variant (.record (by
      simp [ReadsBack.unsigned hs.version, ReadsBack.unsigned hs.dekVersion,
        ReadsBack.integer hs.after hs.before]))
  | changed name => exact .variant (.record (by simp))
  | _ => exact .textString _

end SyncMessage

end SecretBunker
