import Mathlib.Data.List.Destutter
import SecretBunker.Operator.Crd
import SecretBunker.Replica.Engine

/-!
# Secret の中身を作る

`operator/src/render.rs`、`secretbuild.rs`、`bunker.rs` の `ReplicaSource`。spec の並びに従って
mirror を読み、Secret の data を作る。JSON の読み書きと `{:?}` の書式は repository の外にあるので
`Formats` にまとめて引数に取る。
-/

namespace SecretBunker

open Ordered Relational

namespace Operator

/-- repository の外にある書式。`Value` は `serde_json::Value` である。 -/
structure Formats where
  Value : Type
  fromSlice : Bytes → Except String Value
  asObject : Value → Option (List (String × Value))
  pointer : Value → String → Option Value
  asStr : Value → Option String
  toString : Value → String
  /-- 文字列の列の `{:?}`。 -/
  debug : List String → String
  /-- `jiff::Timestamp::try_from`：扱える範囲の時刻だけを通す。 -/
  timestamp : Int → Option Int

/-! ## 読み元 -/

inductive SourceError where
  | missingGroup
  | missingSecret
  /-- mirror にあるが、まだ読めない。 -/
  | notYetSynced (msg : String)
  | other (msg : String)
  deriving DecidableEq

structure SecretSource where
  list : String → Except SourceError (List String)
  get : String → String → Except SourceError Bytes

def groupExists (mirror : Db) (group : String) : Bool :=
  (Store.replicaGroupNames mirror).any (· == group)

/-- mirror を読み元にする。失敗の種類は文言ではなく mirror を見直して決める。 -/
def replicaSource (prim : Primitives) (own : String) (key : AgeIdentity) (mirror : Db) :
    SecretSource where
  list group :=
    if groupExists mirror group then
      match Replica.list mirror group with
      | .ok entries => .ok (entries.map (·.1))
      | .error e => .error (.other e)
    else .error .missingGroup
  get group name :=
    match Replica.get prim own key mirror group name with
    | .ok value => .ok value
    | .error e =>
      if groupExists mirror group then
        match Replica.list mirror group with
        | .error e => .error (.other e)
        | .ok names =>
          if names.any fun n => n.1 == name then .error (.notYetSynced e)
          else .error .missingSecret
      else .error .missingGroup

/-! ## 中身 -/

inductive RenderError where
  | missingGroup (group : String)
  | missingSecret (group name : String)
  | notYetSynced (group name msg : String)
  | invalidKey (keys : List String)
  | json (group name msg : String)
  | pointer (group name pointer : String)
  | notObject (group name : String)
  deriving DecidableEq

/-- Secret の鍵に使える文字だけからなる、空でない文字列。 -/
def validKey (k : String) : Bool :=
  k != "" && k.toList.all fun c => c.isAlphanum || c == '-' || c == '_' || c == '.'

def sourceErr (e : SourceError) (group name : String) : RenderError :=
  match e with
  | .missingGroup => .missingGroup group
  | .missingSecret => .missingSecret group name
  | .notYetSynced msg => .notYetSynced group name msg
  | .other msg => .notYetSynced group name msg

/-- 途中の結果。使えない鍵は貯めておき、最後にまとめて断る。 -/
structure Rendered where
  out : SortedMap String Bytes := .empty
  invalid : List String := []

def Rendered.put (r : Rendered) (key : String) (value : Bytes) : Rendered :=
  if validKey key then { r with out := r.out.insert key value }
  else { r with invalid := r.invalid ++ [key] }

variable (formats : Formats) (source : SecretSource)

def parseJson (group name : String) (bytes : Bytes) : Except RenderError formats.Value :=
  (formats.fromSlice bytes).mapError fun msg => .json group name msg

/-- JSON の文字列は中身の UTF-8、ほかの値は詰めた JSON になる。 -/
def jsonValueBytes (v : formats.Value) : Bytes :=
  match formats.asStr v with
  | some s => asBytes s
  | none => asBytes (formats.toString v)

def lookup (group name : String) : Except RenderError Bytes :=
  (source.get group name).mapError fun e => sourceErr e group name

/-- 最初に当たる規則で名前を書き換える。 -/
def rewriteName (rewrite : List Rewrite) (name : String) : String :=
  ((rewrite.find? fun r => r.source == name).map (·.target)).getD name

/-- 同じ名前の規則がいくつあっても、使われるのは最初の一つである。 -/
theorem rewriteName_first {before after : List Rewrite} {r : Rewrite}
    (h : ∀ r' ∈ before, r'.source ≠ r.source) :
    rewriteName (before ++ r :: after) r.source = r.target := by
  have hbefore : before.find? (fun r' => r'.source == r.source) = none := by
    simpa only [List.find?_eq_none, beq_iff_eq] using h
  rw [rewriteName, List.find?_append, hbefore, Option.none_or,
    List.find?_cons_of_pos (by rw [beq_self_eq_true])]
  rfl

/-- 当たる規則が無ければ、名前はそのままである。 -/
theorem rewriteName_none {rewrite : List Rewrite} {name : String}
    (h : ∀ r ∈ rewrite, r.source ≠ name) : rewriteName rewrite name = name := by
  have hnone : rewrite.find? (fun r => r.source == name) = none := by
    simpa only [List.find?_eq_none, beq_iff_eq] using h
  rw [rewriteName, hnone]
  rfl

def renderFrom (r : Rendered) : DataFromEntry → Except RenderError Rendered
  | .group group rewrite => do
    let names ← (source.list group).mapError fun e => sourceErr e group ""
    names.foldlM (fun r name => do
      let value ← lookup source group name
      pure (r.put (rewriteName rewrite name) value)) r
  | .extract group name => do
    let value ← lookup source group name
    let json ← parseJson formats group name value
    match formats.asObject json with
    | none => .error (.notObject group name)
    | some obj => pure (obj.foldl (fun r e => r.put e.1 (jsonValueBytes formats e.2)) r)

def renderData (r : Rendered) (d : DataEntry) : Except RenderError Rendered := do
  let value ← lookup source d.remoteRef.group d.remoteRef.name
  match d.remoteRef.property with
  | none => pure (r.put d.secretKey value)
  | some pointer => do
    let json ← parseJson formats d.remoteRef.group d.remoteRef.name value
    match formats.pointer json pointer with
    | none => .error (.pointer d.remoteRef.group d.remoteRef.name pointer)
    | some v => pure (r.put d.secretKey (jsonValueBytes formats v))

def render (spec : BunkerSecretSpec) : Except RenderError (SortedMap String Bytes) := do
  let r ← spec.dataFrom.foldlM (renderFrom formats source) {}
  let r ← spec.data.foldlM (renderData formats source) r
  if r.invalid.isEmpty then pure r.out
  else .error (.invalidKey ((sortOn id r.invalid).destutter (· ≠ ·)))

/-! ## Secret -/

/-- `u64::to_le_bytes` -/
def toLeBytes (n : Nat) : Bytes := (toBeBytes n).reverse

/-- hash に流す byte の列。長さを前に置いた鍵と値が、鍵の順に並ぶ。 -/
def hashInput (data : SortedMap String Bytes) : Bytes :=
  data.entries.flatMap fun e => toLeBytes (asBytes e.1).length ++ asBytes e.1 ++
    toLeBytes e.2.length ++ e.2

def hexDigit (n : Nat) : Char := Char.ofNat (if n < 10 then 48 + n else 87 + n)

/-- `HEXLOWER.encode` -/
def hexLower (bytes : Bytes) : String :=
  String.ofList (bytes.flatMap fun b => [hexDigit (b.toNat / 16), hexDigit (b.toNat % 16)])

def contentHash (prim : Primitives) (data : SortedMap String Bytes) : String :=
  "sha256:" ++ hexLower (prim.sha256 (hashInput data))

/-- 書きたい Secret。名前と uid の無い CR からは作れない。 -/
def buildSecret (prim : Primitives) (cr : BunkerSecret) (data : SortedMap String Bytes) :
    Option K8sSecret :=
  cr.uid.map fun uid => {
    name := cr.targetName
    nameSpace := cr.nameSpace
    annotations := SortedMap.empty.insert hashAnnotation (contentHash prim data)
    labels := SortedMap.empty.insert "app.kubernetes.io/managed-by" "secret-bunker-operator"
    ownerReferences := SortedMap.empty.insert uid
      ⟨"bunker.fables-for-robots.ch/v1alpha1", "BunkerSecret", cr.name, true⟩
    type := (cr.spec.target.bind (·.type)).getD "Opaque"
    data := some data }

end Operator

end SecretBunker
