import SecretBunker.Crypto.Bytes
import SecretBunker.Lib.Pool
import SecretBunker.Lib.Text
import SecretBunker.Operator.Render

/-!
# operator の identity

`operator/src/identity.rs`。operator は iroh の鍵を Kubernetes の Secret に置く。Secret が無ければ
鍵を作って CREATE し、有れば中の鍵を使う。CREATE に負けたときは、作った鍵を捨てて置かれた鍵を読む。

何台もの operator が同時に起動しても、一つの鍵に落ち着くことを示す。API 呼び出しは途中で失敗しうる。
要求が届かないことも、届いて書かれたのに返事が失われることもある。
-/

namespace SecretBunker

open Interleaving Ordered Text

namespace Operator

/-! ## 鍵 -/

/-- iroh の秘密鍵。 -/
structure SecretKey where
  bytes : Bytes
  length_eq : bytes.length = 32
  deriving DecidableEq

/-- iroh の鍵の読み書き。 -/
structure KeyFormat where
  /-- `SecretKey::public` の文字列 -/
  publicText : SecretKey → String
  /-- `str::parse::<SecretKey>` -/
  parse : String → Except String SecretKey

/-- 鍵 file と同じ 16 進。 -/
def encodeEndpointKey (key : SecretKey) : String := hexLower key.bytes

/-- `str::from_utf8` -/
def fromUtf8 (bytes : Bytes) : Option String := String.fromUTF8? ⟨bytes.toArray⟩

/-! ## API server -/

inductive ApiError where
  /-- API server の答えた error。 -/
  | api (code : Nat) (message : String)
  | transport (message : String)
  deriving DecidableEq

/-- API server まで届くか。`lost` では要求は行われ、返事だけが失われる。 -/
inductive Reach where
  | up
  | refused (e : ApiError)
  | lost (e : ApiError)
  deriving DecidableEq

/-- 一つの namespace の Secret。`created` は CREATE で書かれた名前の列である。 -/
structure ApiServer where
  nameSpace : String
  secrets : String → Option K8sSecret
  created : List String
  reach : Reach

namespace ApiServer

variable {α : Type}

/-- 一回の API 呼び出し。 -/
def call (f : ApiServer → Except ApiError α × ApiServer) :
    Prog ApiServer (Except ApiError α) :=
  .atomic fun s =>
    match s.reach with
    | .up => f s
    | .refused e => (.error e, s)
    | .lost e => (.error e, (f s).2)

/-- 無ければ `none` を答える GET。 -/
def getOpt (name : String) : Prog ApiServer (Except ApiError (Option K8sSecret)) :=
  call fun s => (.ok (s.secrets name), s)

/-- 無ければ 404 になる GET。 -/
def get (name : String) : Prog ApiServer (Except ApiError K8sSecret) :=
  call fun s => (match s.secrets name with
    | some secret => .ok secret
    | none => .error (.api 404 "not found"), s)

end ApiServer

/-- CREATE に渡す Secret。 -/
structure NewSecret where
  name : String
  annotations : SortedMap String String
  labels : SortedMap String String
  stringData : SortedMap String String
  type : String

/-- API server は `stringData` を `data` として置く。 -/
def NewSecret.stored (secret : NewSecret) (nameSpace : String) : K8sSecret where
  name := secret.name
  nameSpace := nameSpace
  annotations := secret.annotations
  labels := secret.labels
  ownerReferences := .empty
  type := secret.type
  data := some (secret.stringData.filterMap fun _ text => some (asBytes text))

/-- Secret を新しく置いた API server。 -/
def ApiServer.insert (s : ApiServer) (secret : NewSecret) : ApiServer :=
  { s with
    secrets := Function.update s.secrets secret.name (some (secret.stored s.nameSpace))
    created := s.created ++ [secret.name] }

/-- 同じ名前の Secret があれば 409 になる CREATE。 -/
def ApiServer.create (secret : NewSecret) : Prog ApiServer (Except ApiError Unit) :=
  call fun s =>
    match s.secrets secret.name with
    | some _ => (.error (.api 409 "already exists"), s)
    | none => (.ok (), s.insert secret)

/-! ## identity の Secret -/

def identitySecretKey : String := "identity.key"

def endpointIdAnnotation : String := "bunker.fables-for-robots.ch/endpoint-id"

inductive IdentityError where
  | getting (name : String) (cause : ApiError)
  | regetting (name : String) (cause : ApiError)
  | creating (name : String) (cause : ApiError)
  | noEntry (name : String)
  | notUtf8 (name : String)
  | parsing (name cause : String)
  deriving DecidableEq

/-- 利用者に見せる文。 -/
def IdentityError.message : IdentityError → String
  | getting name _ => "getting identity Secret " ++ name
  | regetting name _ => "re-getting identity Secret " ++ name ++ " after create conflict"
  | creating name _ => "creating identity Secret " ++ name
  | noEntry name => "identity Secret " ++ name ++ " has no \"" ++ identitySecretKey ++
      "\" entry — this Secret is never overwritten; delete it to let the operator generate a " ++
      "fresh identity"
  | notUtf8 name => "identity Secret " ++ name ++ ": \"" ++ identitySecretKey ++ "\" is not UTF-8"
  | parsing name cause => "parsing key from identity Secret " ++ name ++ ": " ++ cause ++
      " — refusing to overwrite existing key material; delete the Secret to let the operator " ++
      "generate a fresh identity"

variable (keys : KeyFormat)

def parseIdentitySecret (secret : K8sSecret) (name : String) : Except IdentityError SecretKey :=
  match secret.data.bind (·.get? identitySecretKey) with
  | none => .error (.noEntry name)
  | some data =>
    match fromUtf8 data with
    | none => .error (.notUtf8 name)
    | some text =>
      match keys.parse (trim text) with
      | .error e => .error (.parsing name e)
      | .ok key => .ok key

def identitySecret (name : String) (key : SecretKey) : NewSecret where
  name := name
  annotations := SortedMap.empty.insert endpointIdAnnotation (keys.publicText key)
  labels := SortedMap.empty.insert "app.kubernetes.io/managed-by" "secret-bunker-operator"
  stringData := SortedMap.empty.insert identitySecretKey (encodeEndpointKey key)
  type := "Opaque"

/-- 鍵を読むか、作って置く。`fresh` は `SecretKey::generate` の答えである。 -/
def resolveManagedIdentity (name : String) (fresh : SecretKey) :
    Prog ApiServer (Except IdentityError SecretKey) := do
  match ← ApiServer.getOpt name with
  | .error e => pure (.error (.getting name e))
  | .ok (some existing) => pure (parseIdentitySecret keys existing name)
  | .ok none =>
    match ← ApiServer.create (identitySecret keys name fresh) with
    | .ok () => pure (.ok fresh)
    -- CREATE に負けた：置かれた鍵が勝つ
    | .error (.api 409 _) =>
      match ← ApiServer.get name with
      | .error e => pure (.error (.regetting name e))
      | .ok existing => pure (parseIdentitySecret keys existing name)
    | .error e => pure (.error (.creating name e))

/-! ## 置いた鍵は読み戻せる -/

theorem fromUtf8_asBytes (s : String) : fromUtf8 (asBytes s) = some s := by
  have hbytes : (⟨(asBytes s).toArray⟩ : ByteArray) = s.toByteArray := rfl
  rw [fromUtf8, hbytes, String.fromUTF8?, dif_pos s.isValidUTF8]
  rfl

theorem trim_encodeEndpointKey (key : SecretKey) :
    trim (encodeEndpointKey key) = encodeEndpointKey key := by
  have hdigit : ∀ n < 16, isWhitespace (hexDigit n) = false := by decide
  refine trim_eq_self fun c hc => ?_
  rw [encodeEndpointKey, hexLower, String.toList_ofList] at hc
  obtain ⟨b, -, hc⟩ := List.mem_flatMap.mp hc
  have hb := b.toNat_lt
  rcases List.mem_cons.mp hc with rfl | hc
  · exact hdigit _ (by omega)
  · rw [List.mem_singleton.mp hc]
    exact hdigit _ (by omega)

variable {keys} {name : String}

/-- 自分の置いた Secret からは、自分の鍵が読める。 -/
theorem parse_identitySecret (hparse : ∀ key, keys.parse (encodeEndpointKey key) = .ok key)
    (key : SecretKey) (nameSpace : String) :
    parseIdentitySecret keys ((identitySecret keys name key).stored nameSpace) name = .ok key := by
  have hdata : ((identitySecret keys name key).stored nameSpace).data.bind
      (·.get? identitySecretKey) = some (asBytes (encodeEndpointKey key)) := by
    simp [identitySecret, NewSecret.stored, SortedMap.get?_filterMap, SortedMap.get?_insert]
  unfold parseIdentitySecret
  simp only [hdata, fromUtf8_asBytes, trim_encodeEndpointKey, hparse]

/-! ## 並んだ起動 -/

/-- Secret `name` に触れない動き。 -/
def Unedited (name : String) (s s' : ApiServer) : Prop :=
  s'.secrets name = s.secrets name ∧ s'.created.count name = s.created.count name

/-- 無かった Secret が、一度の書き込みで置かれる動き。 -/
def PutOnce (name : String) (s s' : ApiServer) : Prop :=
  s.secrets name = none ∧ s'.secrets name ≠ none ∧
    s'.created.count name = s.created.count name + 1

/-- 起動した operator の動きの幅。置かれた Secret はもう動かない。 -/
def installing (name : String) : Accord ApiServer where
  rel := fun s s' => Unedited name s s' ∨ PutOnce name s s'
  refl := fun _ => Or.inl ⟨rfl, rfl⟩
  trans := by
    rintro a b c (⟨hs, hn⟩ | ⟨hs, hs', hn⟩) (⟨ht, hm⟩ | ⟨ht, ht', hm⟩)
    · exact Or.inl ⟨ht.trans hs, hm.trans hn⟩
    · exact Or.inr ⟨hs.symm.trans ht, ht', by omega⟩
    · exact Or.inr ⟨hs, ht ▸ hs', by omega⟩
    · exact absurd ht hs'

theorem secret_of_installing {s s' : ApiServer} {stored : K8sSecret}
    (h : (installing name).rel s s') (hs : s.secrets name = some stored) :
    s'.secrets name = some stored := by
  rcases h with h | h
  · exact h.1.trans hs
  · rw [h.1] at hs
    cases hs

/-- 鍵を答えたなら、その鍵は Secret に置かれている。 -/
def Adopted (keys : KeyFormat) (name : String) (r : Except IdentityError SecretKey)
    (s : ApiServer) : Prop :=
  ∀ key, r = .ok key →
    ∃ stored, s.secrets name = some stored ∧ parseIdentitySecret keys stored name = .ok key

section Run

variable {s : ApiServer}

/-- API 呼び出し一つの規則。失敗は、要求の前の状態にも後の状態にも起こる。 -/
theorem abides_call {α β : Type} {A : Accord ApiServer} {post : β → ApiServer → Prop}
    {f : ApiServer → Except ApiError α × ApiServer} {k : Except ApiError α → Prog ApiServer β}
    (hok : ∀ v, A.rel s v → A.rel v (f v).2 ∧ A.Abides post (k (f v).1) (f v).2)
    (herr : ∀ e v, A.Abides post (k (.error e)) v) :
    A.Abides post (ApiServer.call f >>= k) s := by
  refine .atomic_bind fun v hv => ?_
  cases v.reach with
  | up => exact hok v hv
  | refused e => exact ⟨A.refl v, herr e v⟩
  | lost e => exact ⟨(hok v hv).1, herr e _⟩

theorem abides_error (e : IdentityError) :
    (installing name).Abides (Adopted keys name) (pure (.error e)) s :=
  .ret fun _ _ _ h => nomatch h

/-- 置かれた Secret を読む。 -/
theorem abides_parse {stored : K8sSecret} (hs : s.secrets name = some stored) :
    (installing name).Abides (Adopted keys name) (pure (parseIdentitySecret keys stored name)) s :=
  .ret fun _ hr _ hkey => ⟨stored, secret_of_installing hr hs, hkey⟩

/-- CREATE に負けた後の GET。 -/
theorem abides_reget : (installing name).Abides (Adopted keys name) (do
    match ← ApiServer.get name with
    | .error e => pure (.error (.regetting name e))
    | .ok existing => pure (parseIdentitySecret keys existing name)) s := by
  refine abides_call (fun v _ => ⟨(installing name).refl v, ?_⟩) fun e v => abides_error _
  dsimp only
  cases hs : v.secrets name with
  | none => exact abides_error _
  | some stored => exact abides_parse hs

theorem installing_insert (secret : NewSecret) (h : s.secrets secret.name = none) :
    (installing secret.name).rel s (s.insert secret) := by
  refine Or.inr ⟨h, ?_, ?_⟩
  · simp [ApiServer.insert]
  · simp [ApiServer.insert, List.count_append]

/-- 起動一つは、幅の中で動き、答えた鍵は置かれている。 -/
theorem abides_resolve (hparse : ∀ key, keys.parse (encodeEndpointKey key) = .ok key)
    (fresh : SecretKey) :
    (installing name).Abides (Adopted keys name) (resolveManagedIdentity keys name fresh) s := by
  refine abides_call (fun v _ => ⟨(installing name).refl v, ?_⟩) fun e v => abides_error _
  dsimp only
  cases hs : v.secrets name with
  | some stored => exact abides_parse hs
  | none =>
    refine abides_call (fun v _ => ?_) fun e v => ?_
    · have hname : (identitySecret keys name fresh).name = name := rfl
      rw [hname]
      cases hs : v.secrets name with
      | some stored => exact ⟨(installing name).refl v, abides_reget⟩
      | none =>
        refine ⟨installing_insert (identitySecret keys name fresh) hs, .ret ?_⟩
        intro s' hr key hkey
        cases hkey
        refine ⟨_, secret_of_installing hr ?_, parse_identitySecret hparse fresh v.nameSpace⟩
        simp [ApiServer.insert, identitySecret]
    · split
      · next h => cases h
      · exact abides_reget
      · exact abides_error _

theorem within_resolve (fresh : SecretKey) : (resolveManagedIdentity keys name fresh).Within 3 := by
  refine .atomic_bind fun r => ?_
  split
  · exact Prog.within_ret _ _
  · exact Prog.within_ret _ _
  · refine Prog.Within.atomic_bind fun r => ?_
    split
    · exact Prog.within_ret _ _
    · refine Prog.Within.atomic_bind fun r => ?_
      split <;> exact Prog.within_ret _ _
    · exact Prog.within_ret _ _

end Run

/-- 同じ Secret を使う operator を、作った鍵 `fresh` の数だけ起動する。 -/
def startAll (keys : KeyFormat) (name : String) (fresh : List SecretKey) (s₀ : ApiServer) :
    Pool ApiServer (Except IdentityError SecretKey) :=
  ⟨s₀, fresh.map (resolveManagedIdentity keys name)⟩

/--
**何台起動しても、identity は一つである。**

API 呼び出しがどう割り込み合い、どこで失敗しても、鍵を答えた起動の鍵はどれも同じで、Secret に置かれた
鍵である。Secret は高々一度しか書かれず、はじめから有れば書かれない。有る Secret が読めなければ、
どの起動も失敗する。起動は三回の呼び出しで必ず答える。
-/
theorem instances_agree (hparse : ∀ key, keys.parse (encodeEndpointKey key) = .ok key)
    (name : String) (fresh : List SecretKey) (s₀ : ApiServer) (moves : List (Pool.Move ApiServer))
    (henv : (startAll keys name fresh s₀).Allows (Unedited name) moves) :
    let p := (startAll keys name fresh s₀).exec moves
    (∀ i key, p.result i = some (.ok key) → ∃ stored, p.shared.secrets name = some stored ∧
      parseIdentitySecret keys stored name = .ok key) ∧
    (∀ i j key key', p.result i = some (.ok key) → p.result j = some (.ok key') → key = key') ∧
    p.shared.created.count name ≤ s₀.created.count name + 1 ∧
    (∀ stored, s₀.secrets name = some stored → p.shared.secrets name = some stored ∧
      p.shared.created.count name = s₀.created.count name ∧
      ∀ e, parseIdentitySecret keys stored name = .error e →
        ∀ i r, p.result i = some r → ∃ e', r = .error e') ∧
    ∀ i < fresh.length, 3 ≤ moves.countP (·.isRun i) → ∃ r, p.result i = some r := by
  intro p
  have hstart : ∀ prog ∈ (startAll keys name fresh s₀).runs,
      (installing name).Abides (Adopted keys name) prog s₀ := by
    intro prog hprog
    obtain ⟨key, -, rfl⟩ := List.mem_map.mp hprog
    exact abides_resolve hparse key
  obtain ⟨hrel, hruns⟩ := Pool.abides_exec hstart (henv.mono fun _ _ => Or.inl)
  have hadopted : ∀ i key, p.result i = some (.ok key) → ∃ stored,
      p.shared.secrets name = some stored ∧ parseIdentitySecret keys stored name = .ok key :=
    fun i key h => Pool.post_of_result hruns h key rfl
  refine ⟨hadopted, fun i j key key' hi hj => ?_, ?_, fun stored hs => ?_, fun i hi hthree => ?_⟩
  · obtain ⟨stored, hs, hk⟩ := hadopted i key hi
    obtain ⟨stored', hs', hk'⟩ := hadopted j key' hj
    cases hs.symm.trans hs'
    exact Except.ok.inj (hk.symm.trans hk')
  · rcases hrel with ⟨-, hcount⟩ | ⟨-, -, hcount⟩
    · exact hcount.le.trans (Nat.le_succ _)
    · exact hcount.le
  · have hkept : p.shared.secrets name = some stored := secret_of_installing hrel hs
    have hcount : p.shared.created.count name = s₀.created.count name := by
      rcases hrel with ⟨-, hcount⟩ | ⟨hnone, -⟩
      · exact hcount
      · exact absurd (hs.symm.trans hnone) (Option.some_ne_none _)
    refine ⟨hkept, hcount, fun e he i r hr => ?_⟩
    cases r with
    | error e' => exact ⟨e', rfl⟩
    | ok key =>
      obtain ⟨stored', hs', hk⟩ := hadopted i key hr
      cases hkept.symm.trans hs'
      rw [he] at hk
      cases hk
  · have hget : (startAll keys name fresh s₀).runs[i]? =
        some (resolveManagedIdentity keys name fresh[i]) := by
      simp [startAll, hi]
    exact Pool.result_of_within hget (within_resolve _) hthree

/-! ### 二台の競争 -/

def unhexDigit (c : Char) : Nat := if c.toNat < 58 then c.toNat - 48 else c.toNat - 87

/-- 二桁ずつの 16 進を byte に戻す。 -/
def unhex : List Char → Bytes
  | a :: b :: rest => UInt8.ofNat (16 * unhexDigit a + unhexDigit b) :: unhex rest
  | _ => []

theorem unhex_hexLower (bytes : Bytes) : unhex (hexLower bytes).toList = bytes := by
  have hdigit : ∀ n < 16, unhexDigit (hexDigit n) = n := by decide
  rw [hexLower, String.toList_ofList]
  induction bytes with
  | nil => rfl
  | cons b rest ih =>
    have hb := b.toNat_lt
    rw [List.flatMap_cons]
    show UInt8.ofNat _ :: unhex (rest.flatMap _) = _
    rw [ih, hdigit _ (by omega), hdigit _ (by omega), Nat.div_add_mod, UInt8.ofNat_toNat]

/-- 16 進だけを読む鍵の書式。 -/
def hexKeys : KeyFormat where
  publicText := fun _ => ""
  parse := fun text =>
    if h : (unhex text.toList).length = 32 then .ok ⟨_, h⟩ else .error "length"

theorem parse_hexKeys (key : SecretKey) : hexKeys.parse (encodeEndpointKey key) = .ok key := by
  have hbytes := unhex_hexLower key.bytes
  simp only [hexKeys, encodeEndpointKey, hbytes, key.length_eq, dif_pos]

def sampleKey (b : UInt8) : SecretKey := ⟨List.replicate 32 b, List.length_replicate⟩

def emptyServer : ApiServer := ⟨"ops", fun _ => none, [], .up⟩

/-- 二台が揃って GET し、先の CREATE が勝つ。 -/
def race : List (Pool.Move ApiServer) := [.run 0, .run 1, .run 0, .run 1, .run 1]

theorem instances_agree_sample :
    let p := (startAll hexKeys "id" [sampleKey 1, sampleKey 2] emptyServer).exec race
    p.result 0 = some (.ok (sampleKey 1)) ∧ p.result 1 = some (.ok (sampleKey 1)) ∧
      p.shared.created.count "id" ≤ 1 := by
  intro p
  obtain ⟨-, -, hcount, -, -⟩ := instances_agree parse_hexKeys "id"
    [sampleKey 1, sampleKey 2] emptyServer race
    ⟨by simp, by simp, by simp, by simp, by simp, trivial⟩
  have hfirst : p.result 0 = some (.ok (sampleKey 1)) := rfl
  have hsecond : p.result 1 = some (parseIdentitySecret hexKeys
      ((identitySecret hexKeys "id" (sampleKey 1)).stored "ops") "id") := rfl
  rw [parse_identitySecret parse_hexKeys] at hsecond
  exact ⟨hfirst, hsecond, hcount⟩

end Operator

end SecretBunker
