import Mathlib.Algebra.Order.BigOperators.Group.List
import SecretBunker.Keys.Recovery
import SecretBunker.Replica.Engine
import SecretBunker.Server.Refinement
import SecretBunker.Wire

/-!
# 上限に収まること

書き込めた secret は、読み取りの応答としても、replica への `SecretData` としても上限に収まる。上限を分け合うのは
group と secret の名前、値、書いた者の名前であり、書いた者の名前だけは別の要求（`AddIdentity`）が抑えている。

group の一覧は 1000 行ずつに切って送られるが、取り寄せの要求は名前をすべて一つの message に載せる。
-/

namespace SecretBunker

open Cbor

/-! ## message の長さ -/

section Length

variable (group name : String) (value : Bytes)

theorem length_encode_put (expectedVersion : UInt64) :
    (Request.put group name value expectedVersion).encode.length =
      40 + (textString group).length + (textString name).length + (byteString value).length +
        headLen expectedVersion.toNat := by
  rw [Request.encode, length_variant_map _ (by simp)]
  simp only [List.map_cons, List.map_nil, List.sum_cons, List.sum_nil, length_unsigned,
    show (textString "Put").length = 4 from rfl, show (textString "group").length = 6 from rfl,
    show (textString "name").length = 5 from rfl, show (textString "value").length = 6 from rfl,
    show (textString "expected_version").length = 17 from rfl]
  omega

theorem length_encode_addIdentity (endpointId : String) (serviceAdmin : Bool) :
    (Request.addIdentity name endpointId serviceAdmin).encode.length =
      46 + (textString name).length + (textString endpointId).length := by
  rw [Request.encode, length_variant_map _ (by simp)]
  simp only [List.map_cons, List.map_nil, List.sum_cons, List.sum_nil, length_boolean,
    show (textString "AddIdentity").length = 12 from rfl,
    show (textString "name").length = 5 from rfl,
    show (textString "endpoint_id").length = 12 from rfl,
    show (textString "service_admin").length = 14 from rfl]
  omega

theorem length_encode_secret (version : Nat) :
    (Response.secret value version).encode.length =
      23 + (byteString value).length + headLen version := by
  rw [Response.encode, length_variant_map _ (by simp)]
  simp only [List.map_cons, List.map_nil, List.sum_cons, List.sum_nil, length_unsigned,
    show (textString "Secret").length = 7 from rfl, show (textString "value").length = 6 from rfl,
    show (textString "version").length = 8 from rfl]
  omega

theorem length_encode_secretData (s : FetchedSecret) :
    (SyncMessage.secretData s).encode.length =
      77 + (textString s.name).length + headLen s.version + headLen s.dekVersion +
        (byteString s.nonce).length + (byteString s.ciphertext).length +
        (integer s.createdAt).length + (textString s.createdBy).length := by
  rw [SyncMessage.encode, length_variant_map _ (by simp)]
  simp only [List.map_cons, List.map_nil, List.sum_cons, List.sum_nil, length_unsigned,
    show (textString "SecretData").length = 11 from rfl,
    show (textString "name").length = 5 from rfl,
    show (textString "version").length = 8 from rfl,
    show (textString "dek_version").length = 12 from rfl,
    show (textString "nonce").length = 6 from rfl,
    show (textString "ciphertext").length = 11 from rfl,
    show (textString "created_at").length = 11 from rfl,
    show (textString "created_by").length = 11 from rfl]
  omega

end Length

/-! ## 書き込めた secret -/

section Secret

variable {group name author endpointId : String} {value : Bytes} {expectedVersion : UInt64}
  {serviceAdmin : Bool}

/-- 名前と値は一つの要求に収まっているので、片方が長ければもう片方は短い。 -/
theorem put_budget (h : (Request.put group name value expectedVersion).encode.length ≤ maxMsg) :
    (textString name).length + (byteString value).length ≤ 4194262 ∧ value.length ≤ 4194262 := by
  have hgroup : 1 ≤ (textString group).length := by
    rw [length_textString]
    exact le_add_right (headLen_pos _)
  have hversion := headLen_pos expectedVersion.toNat
  have hvalue := length_byteString value
  rw [length_encode_put, maxMsg] at h
  omega

/-- 登録した要求が、endpoint id のぶんだけ名前を抑える。 -/
theorem author_budget
    (h : (Request.addIdentity author endpointId serviceAdmin).encode.length ≤ maxMsg)
    (hid : 52 ≤ endpointId.length) : (textString author).length ≤ 4194204 := by
  have hlen : 52 ≤ (utf8 endpointId).length := hid.trans (length_le_utf8 endpointId)
  have hhead : 2 ≤ headLen (utf8 endpointId).length := headLen_mono hlen
  have htext := length_textString endpointId
  rw [length_encode_addIdentity, maxMsg] at h
  omega

/--
**書き込めた secret は、読み返せて、replica に運べる。**

`Put` が client の上限に収まり、書いた者の名前が同じ上限に収まる `AddIdentity` で登録されていれば、値を載せた応答は
client の上限に、暗号文を載せた `SecretData` は sync の上限に収まる。
-/
theorem written_secret_fits
    (hput : (Request.put group name value expectedVersion).encode.length ≤ maxMsg)
    (hauthor : (Request.addIdentity author endpointId serviceAdmin).encode.length ≤ maxMsg)
    (hid : 52 ≤ endpointId.length) (version dekVersion : Nat) {nonce ciphertext : Bytes}
    (hnonce : nonce.length = 12) (hct : ciphertext.length = value.length + 16) (createdAt : Int) :
    (Response.secret value version).encode.length ≤ maxMsg ∧
      (SyncMessage.secretData ⟨⟨version, dekVersion, nonce, ciphertext, createdAt, author⟩,
        name⟩).encode.length ≤ syncMaxMsg ∧
      (frame SyncMessage.encode (.secretData
        ⟨⟨version, dekVersion, nonce, ciphertext, createdAt, author⟩, name⟩)).isSome := by
  obtain ⟨hsum, hvalue⟩ := put_budget hput
  have hname := author_budget hauthor hid
  have hv := headLen_le version
  have hdata : (SyncMessage.secretData ⟨⟨version, dekVersion, nonce, ciphertext, createdAt, author⟩,
      name⟩).encode.length ≤ syncMaxMsg := by
    have hd := headLen_le dekVersion
    have ht := length_integer_le createdAt
    have hbytes := length_byteString value
    have hcipher : (byteString ciphertext).length ≤ (byteString value).length + 18 := by
      have hstep := headLen_add_le (n := value.length) (k := 16) (by decide) (by omega)
      rw [length_byteString, hbytes, hct]
      omega
    have hn : (byteString nonce).length = 13 := by
      rw [length_byteString, hnonce]
      rfl
    rw [length_encode_secretData, syncMaxMsg]
    dsimp only
    omega
  refine ⟨?_, hdata, frame_isSome_iff.mpr hdata⟩
  have hname' : 1 ≤ (textString name).length := by
    rw [length_textString]
    exact le_add_right (headLen_pos _)
  rw [length_encode_secret, maxMsg]
  omega

theorem written_secret_fits_sample :
    (Response.secret [7] 1).encode.length ≤ maxMsg ∧
      (frame SyncMessage.encode (.secretData
        ⟨⟨1, 1, List.replicate 12 0, List.replicate 17 0, 0, "a"⟩, "n"⟩)).isSome := by
  obtain ⟨hread, -, hframe⟩ := written_secret_fits
    (show (Request.put "g" "n" [7] 0).encode.length ≤ maxMsg by decide)
    (show (Request.addIdentity "a" (samplePeer 'a') false).encode.length ≤ maxMsg by
      decide)
    (by decide) 1 1 (show (List.replicate 12 0).length = 12 from rfl)
    (show (List.replicate 17 0).length = 17 from rfl) 0
  exact ⟨hread, hframe⟩

end Secret

/-! ## 一覧と取り寄せ -/

section Listing

theorem length_encode_secretEntry (e : SecretEntry) :
    e.encode.length = 40 + (textString e.name).length + headLen e.currentVersion +
      headLen e.dekVersion + (byteString e.nonce).length := by
  rw [SecretEntry.encode, length_map]
  simp only [List.map_cons, List.map_nil, List.sum_cons, List.sum_nil, length_unsigned,
    List.length_cons, List.length_nil, show headLen (0 + 1 + 1 + 1 + 1) = 1 from rfl,
    show (textString "name").length = 5 from rfl,
    show (textString "current_version").length = 16 from rfl,
    show (textString "dek_version").length = 12 from rfl,
    show (textString "nonce").length = 6 from rfl]
  omega

theorem length_encode_groupSecrets (group : String) (secrets : List SecretEntry) :
    (SyncMessage.groupSecrets group secrets).encode.length = 29 + (textString group).length +
      headLen secrets.length + (secrets.map fun e => e.encode.length).sum := by
  rw [SyncMessage.encode, length_variant_map _ (by simp)]
  simp only [List.map_cons, List.map_nil, List.sum_cons, List.sum_nil, length_array,
    List.length_map, List.map_map, Function.comp_def, show (textString "GroupSecrets").length = 13 from rfl,
    show (textString "group").length = 6 from rfl, show (textString "secrets").length = 8 from rfl]
  omega

theorem length_encode_fetchSecrets (group : String) (names : List String) :
    (SyncRequest.fetchSecrets group names).encode.length = 27 + (textString group).length +
      headLen names.length + (names.map fun n => (textString n).length).sum := by
  rw [SyncRequest.encode, length_variant_map _ (by simp)]
  simp only [List.map_cons, List.map_nil, List.sum_cons, List.sum_nil, length_array,
    List.length_map, List.map_map, Function.comp_def, show (textString "FetchSecrets").length = 13 from rfl,
    show (textString "group").length = 6 from rfl, show (textString "names").length = 6 from rfl]
  omega

/-- 取り寄せる名前は、一覧の一部である。 -/
theorem secretsNeedingFetch_sublist (mirror : Db) (snap : GroupSyncState) :
    (Store.secretsNeedingFetch mirror snap).Sublist (snap.secrets.map (·.name)) := by
  unfold Store.secretsNeedingFetch
  split
  · exact List.Sublist.refl _
  · exact List.filter_sublist.map _

/-- 上限に収まる一覧は、そのまま一つの chunk になる。 -/
theorem chunksFrom_of_length_le {α : Type} {size : Nat} {l current : List α}
    (hne : current ++ l ≠ []) (hcurrent : current.length < size)
    (h : current.length + l.length ≤ size) : Sync.chunksFrom size l current = [current ++ l] := by
  induction l generalizing current with
  | nil =>
    rw [List.append_nil] at hne ⊢
    rw [Sync.chunksFrom, if_neg (by simpa using hne)]
  | cons x rest ih =>
    rw [List.length_cons] at h
    rw [Sync.chunksFrom]
    split
    · next hfull =>
      obtain rfl : rest = [] := List.length_eq_zero_iff.mp (by omega)
      rfl
    · rw [ih (by simp) (by rw [List.length_append, List.length_singleton]; omega)
        (by rw [List.length_append, List.length_singleton]; omega), List.append_assoc]
      rfl

/-- chunk の長さは上限までである。 -/
theorem length_le_of_mem_chunksFrom {α : Type} {size : Nat} {l current c : List α}
    (hcurrent : current.length < size) (h : c ∈ Sync.chunksFrom size l current) :
    c.length ≤ size := by
  induction l generalizing current with
  | nil =>
    rw [Sync.chunksFrom] at h
    split at h
    · cases h
    · rw [List.mem_singleton.mp h]
      exact hcurrent.le
  | cons x rest ih =>
    have hlen : (current ++ [x]).length = current.length + 1 := List.length_append
    rw [Sync.chunksFrom] at h
    split at h
    · next hfull =>
      rcases List.mem_cons.mp h with rfl | h
      · rw [hlen, hfull]
      · have hnil : ([] : List α).length < size := Nat.zero_lt_of_lt hcurrent
        exact ih hnil h
    · exact ih (by omega) h

theorem subset_of_mem_chunks {α : Type} {size : Nat} {l c : List α} (h : c ∈ Sync.chunks size l) :
    c ⊆ l := by
  intro x hx
  have hflat : x ∈ (Sync.chunksFrom size l []).flatten := List.mem_flatten.mpr ⟨c, h, hx⟩
  rwa [Sync.flatten_chunksFrom] at hflat

/-- 上限までの数の行しか無い group では、送れた一覧の一つの chunk が、要求より長い。 -/
theorem fetchSecrets_frames_of_chunk {snap : GroupSyncState} (mirror : Db)
    (hframes : ∀ m ∈ Sync.groupMessages snap, (frame SyncMessage.encode m).isSome)
    (hsize : snap.secrets.length ≤ Sync.syncSecretsChunk) :
    (frame SyncRequest.encode
      (.fetchSecrets snap.name (Store.secretsNeedingFetch mirror snap))).isSome := by
  have hlisted : SyncMessage.groupSecrets snap.name snap.secrets ∈ Sync.groupMessages snap := by
    refine List.mem_cons_of_mem _ (List.mem_map_of_mem ?_)
    split
    · next hempty =>
      rw [List.isEmpty_iff.mp hempty]
      exact List.mem_singleton_self _
    · next hne =>
      rw [Sync.chunks,
        chunksFrom_of_length_le (by simpa using hne) (by decide) (by simpa using hsize)]
      exact List.mem_singleton_self _
  have hcap := frame_isSome_iff.mp (hframes _ hlisted)
  have hsub := secretsNeedingFetch_sublist mirror snap
  have hlen : headLen (Store.secretsNeedingFetch mirror snap).length ≤
      headLen snap.secrets.length :=
    headLen_mono (hsub.length_le.trans_eq (List.length_map _))
  have hsum : ((Store.secretsNeedingFetch mirror snap).map fun n => (textString n).length).sum ≤
      (snap.secrets.map fun e => e.encode.length).sum := by
    refine ((hsub.map _).sum_le_sum fun _ _ => Nat.zero_le _).trans ?_
    rw [List.map_map]
    refine List.sum_le_sum fun e _ => ?_
    rw [length_encode_secretEntry]
    show (textString e.name).length ≤ _
    omega
  rw [length_encode_groupSecrets] at hcap
  refine frame_isSome_iff.mpr ?_
  rw [length_encode_fetchSecrets]
  omega

/--
**一覧の送れた group が取り寄せられるのは、要る名前が一つの frame に収まるときちょうどである。**

要る名前は、mirror が一覧と同じ版・鍵の版・nonce で持っていない行の名前である。一覧が一つの chunk に
収まる group では、いつも収まる。
-/
theorem listed_group_fetchable {snap : GroupSyncState} (mirror : Db)
    (hframes : ∀ m ∈ Sync.groupMessages snap, (frame SyncMessage.encode m).isSome) :
    ((frame SyncRequest.encode
        (.fetchSecrets snap.name (Store.secretsNeedingFetch mirror snap))).isSome ↔
      27 + (textString snap.name).length + headLen (Store.secretsNeedingFetch mirror snap).length +
        ((Store.secretsNeedingFetch mirror snap).map fun n => (textString n).length).sum
        ≤ syncMaxMsg) ∧
    (snap.secrets.length ≤ Sync.syncSecretsChunk →
      (frame SyncRequest.encode
        (.fetchSecrets snap.name (Store.secretsNeedingFetch mirror snap))).isSome) := by
  refine ⟨?_, fetchSecrets_frames_of_chunk mirror hframes⟩
  rw [frame_isSome_iff, length_encode_fetchSecrets]

theorem listed_group_fetchable_sample :
    let snap : GroupSyncState := { name := "g", secrets := [⟨"n", 1, 1, List.replicate 12 0⟩] }
    (∀ m ∈ Sync.groupMessages snap, (frame SyncMessage.encode m).isSome) ∧
      (frame SyncRequest.encode
        (.fetchSecrets "g" (Store.secretsNeedingFetch Db.empty snap))).isSome := by
  intro snap
  have hframes : ∀ m ∈ Sync.groupMessages snap, (frame SyncMessage.encode m).isSome := by decide
  exact ⟨hframes, (listed_group_fetchable Db.empty hframes).1.mpr (by decide)⟩

end Listing

/-! ### 一つに収まらない group -/

section Long

open Store

/-- 長い名前。長さが違うので、どれも別の名前である。 -/
def longName (i : Nat) : String := String.ofList (List.replicate (5000 + i) 'a')

theorem length_utf8_longName (i : Nat) : (utf8 (longName i)).length = 5000 + i := by
  rw [longName, utf8_ofList, List.length_flatMap, List.map_replicate, List.sum_replicate]
  simp [String.length_utf8EncodeChar, show Char.utf8Size 'a' = 1 from rfl]

theorem longName_inj {i j : Nat} (h : longName i = longName j) : i = j := by
  have hlen := congrArg (fun s => (utf8 s).length) h
  simp only [length_utf8_longName] at hlen
  omega

/-- group を作ったところ。 -/
def longBase : Db := Node.exec plain sampleDb (sampleCalls [('a', .createGroup "g")])

/-- `i` 番目の長い名前に書く要求。 -/
def putLong (i : Nat) : Node.Op × Ambient :=
  (.handle ⟨"o"⟩ (samplePeer 'a') (.put "g" (longName i) [] 0), sampleAmbient 2)

/-- `k` 個の secret を書いた列。 -/
def longPuts (k : Nat) : List (Node.Op × Ambient) :=
  sampleCalls [('a', .createGroup "g")] ++ (List.range k).map putLong

/-- `g` の secret が、先頭の `k` 個の名前ちょうどである database。 -/
structure Stocked (k : Nat) (db : Db) : Prop where
  tables : ∃ t u hg hv log, db = (longBase.withSecrets t u hg hv).withAudit log
  listed : ∀ n row, secretDataCurrent db 1 n = some row →
    ∃ i < k, n = longName i ∧ row.version = 1 ∧ row.dekVersion = 1 ∧ row.nonce.length = 12
  stored : ∀ i < k, ∃ row, secretDataCurrent db 1 (longName i) = some row

/-- `Put` が書くのは secret の表だけである。 -/
theorem put_only (prim : Primitives) (inner : Inner) (amb : Ambient) (db : Db)
    (remote group name : String) (value : Bytes) (e : UInt64) : ∃ t u hg hv,
      (Bunker.dispatch prim inner amb db remote (.put group name value e)).2 =
        db.withSecrets t u hg hv := by
  rcases @dispatch_cases prim inner amb db remote (.put group name value e) with
    ⟨-, h⟩ | ⟨ident, -, h⟩
  · rw [h]
    exact withSecrets_self db
  · generalize (Bunker.dispatch prim inner amb db remote (.put group name value e)).2 = db',
      (Bunker.dispatch prim inner amb db remote (.put group name value e)).1 = resp at h
    cases h with
    | none _ => exact withSecrets_self db
    | put _ _ _ stored => exact putSecret_only stored

variable {k : Nat} {db : Db}

/-- secret の表のほかは `longBase` のままなので、認可も鍵も `longBase` で決まる。 -/
theorem Stocked.base (h : Stocked k db) : Bunker.new plain db ⟨"o"⟩ = some sampleInner ∧
    identityByEndpoint db (samplePeer 'a') = some ⟨1, samplePeer 'a', "admin", true⟩ ∧
    authorizeGroup db ⟨1, samplePeer 'a', "admin", true⟩ "g" permWrite true = some 1 ∧
    currentDekVersion db 1 = some 1 := by
  obtain ⟨t, u, hg, hv, log, rfl⟩ := h.tables
  show Bunker.new plain longBase ⟨"o"⟩ = _ ∧ identityByEndpoint longBase _ = _ ∧
    authorizeGroup longBase _ _ _ _ = _ ∧ currentDekVersion longBase 1 = _
  decide

theorem Stocked.fresh (hc : Consistent plain db) (h : Stocked k db) :
    (secretVersion db 1 (longName k)).getD 0 = 0 := by
  rw [hc.secrets.secretVersion_eq]
  cases hrow : secretDataCurrent db 1 (longName k) with
  | none => rfl
  | some row =>
    obtain ⟨i, hi, hn, -⟩ := h.listed _ row hrow
    exact absurd (longName_inj hn) (by omega)

/-- 次の名前の `Put`。 -/
def handleLong (k : Nat) (db : Db) : Bunker.Handled :=
  Bunker.handle plain sampleInner (sampleAmbient 2) db (samplePeer 'a')
    (.put "g" (longName k) [] 0)

theorem Stocked.step_putLong (h : Stocked k db) :
    (Node.step plain db (putLong k).1 (putLong k).2).2 = (handleLong k db).db := by
  unfold Node.step putLong
  dsimp only
  rw [h.base.1]
  rfl

theorem Stocked.response (hc : Consistent plain db) (h : Stocked k db) :
    (handleLong k db).response = .version 1 := by
  obtain ⟨hnew, hident, hauth, -⟩ := h.base
  have hput := put_answer plain_lawful hc (matches_of_new plain_lawful hnew).1 hauth
    (by rw [h.fresh hc]; decide) (sampleAmbient 2) [] 0
  rw [h.fresh hc] at hput
  show (Bunker.dispatch _ _ _ _ _ _).1 = _
  unfold Bunker.dispatch
  rw [hident]
  exact hput

theorem Stocked.current (hc : Consistent plain db) (h : Stocked k db) : ∃ row : SecretDataRow,
    (row.version = 1 ∧ row.dekVersion = 1 ∧ row.nonce.length = 12) ∧
      ∀ n, secretDataCurrent (handleLong k db).db 1 n =
        if n = longName k then some row else secretDataCurrent db 1 n := by
  obtain ⟨-, -, hauth, hdek⟩ := h.base
  have hstep : SecretStep plain sampleInner (sampleAmbient 2) db (handleLong k db).db
      (.put "g" (longName k) [] 0) (handleLong k db).response := secretStep_handle hc.secrets _ _
  rw [h.response hc] at hstep
  cases hstep with
  | keep _ quiet => exact absurd trivial quiet
  | put located _ newest unwrapped stored =>
    obtain rfl := Option.some.inj ((groupId_of_authorizeGroup hauth).symm.trans located)
    obtain rfl := Option.some.inj (hdek.symm.trans newest)
    exact ⟨_, ⟨rfl, rfl, (sampleAmbient 2).nonce.length_eq⟩,
      fun n => by simpa using stored.current 1 n⟩

theorem Stocked.tables_put (h : Stocked k db) : ∃ t u hg hv log,
    (handleLong k db).db = (longBase.withSecrets t u hg hv).withAudit log := by
  obtain ⟨t, u, hg, hv, log, rfl⟩ := h.tables
  obtain ⟨t', u', hg', hv', hd⟩ := put_only plain sampleInner (sampleAmbient 2)
    ((longBase.withSecrets t u hg hv).withAudit log) (samplePeer 'a') "g" (longName k) [] 0
  show ∃ t u hg hv log, Store.audit (Bunker.dispatch _ _ _ _ _ _).2 _ _ _ _ _ _ =
    (longBase.withSecrets t u hg hv).withAudit log
  rw [hd]
  exact ⟨t', u', hg', hv', _, rfl⟩

/-- Put を一つ受けると、一つ増える。 -/
theorem Stocked.put (hc : Consistent plain db) (h : Stocked k db) :
    Stocked (k + 1) (handleLong k db).db := by
  obtain ⟨row, hrow, hcur⟩ := h.current hc
  refine ⟨h.tables_put, fun n found hn => ?_, fun i hi => ?_⟩
  · rw [hcur] at hn
    split at hn
    · next heq =>
      obtain rfl := Option.some.inj hn
      exact ⟨k, Nat.lt_succ_self k, heq, hrow⟩
    · obtain ⟨i, hi, hfound⟩ := h.listed n found hn
      exact ⟨i, hi.trans (Nat.lt_succ_self k), hfound⟩
  · rw [hcur]
    split
    · exact ⟨row, rfl⟩
    · next hne =>
      refine h.stored i (Nat.lt_of_le_of_ne (Nat.le_of_lt_succ hi) ?_)
      rintro rfl
      exact hne rfl

/-- `k` 回の Put で `k` 個になる。 -/
theorem stocked_longPuts (k : Nat) : Stocked k (Node.exec plain sampleDb (longPuts k)) := by
  induction k with
  | zero =>
    show Stocked 0 longBase
    refine ⟨?_, fun n row hrow => ?_, fun i hi => absurd hi (Nat.not_lt_zero i)⟩
    · obtain ⟨t, u, hg, hv, hself⟩ := withSecrets_self longBase
      refine ⟨t, u, hg, hv, longBase.auditLog, ?_⟩
      rw [← hself]
      rfl
    · obtain ⟨s, hs, -⟩ := secretDataCurrent_eq_some.mp hrow
      have hempty : longBase.secret.rows = [] := by decide
      rw [Relational.Table.mem_def, hempty] at hs
      cases hs
  | succ k ih =>
    have hc : Consistent plain (Node.exec plain sampleDb (longPuts k)) :=
      consistent_exec plain_lawful (consistent_init (by decide) init_sampleDb) _
    have hexec : Node.exec plain sampleDb (longPuts (k + 1)) = (Node.step plain
        (Node.exec plain sampleDb (longPuts k)) (putLong k).1 (putLong k).2).2 := by
      rw [← Node.exec_snoc, longPuts, longPuts, List.range_succ, List.map_append, List.append_assoc]
      rfl
    rw [hexec, ih.step_putLong]
    exact ih.put hc

/-- `g` を読む peer への snapshot。 -/
def longSnapshot (db : Db) : GroupSyncState := SyncServer.snapshotGroup db 1 "g" (samplePeer 'a')

/-- 一覧の行の長さは、名前の長さでほぼ決まる。 -/
theorem Stocked.entry (h : Stocked k db) {e : SecretEntry} (he : e ∈ (longSnapshot db).secrets) :
    ∃ i < k, e.name = longName i ∧ e.encode.length ≤ 5100 + i := by
  obtain ⟨x, hx, rfl⟩ := List.mem_map.mp he
  obtain ⟨row, hrow, hx⟩ := mem_secretEntries.mp hx
  obtain ⟨i, hi, hn, hv, hd, hnonce⟩ := h.listed _ row hrow
  refine ⟨i, hi, hn, ?_⟩
  have hhead := headLen_le (5000 + i)
  rw [hx, length_encode_secretEntry, length_textString, length_byteString]
  dsimp only
  rw [hn, hv, hd, hnonce, length_utf8_longName, show headLen 1 = 1 from rfl,
    show headLen 12 = 1 from rfl]
  omega

theorem Stocked.length_names (h : Stocked k db) : k ≤ (longSnapshot db).secrets.length := by
  have hsub : (List.range k).map longName ⊆ (longSnapshot db).secrets.map (·.name) := by
    intro n hn
    obtain ⟨i, hi, rfl⟩ := List.mem_map.mp hn
    obtain ⟨row, hrow⟩ := h.stored i (List.mem_range.mp hi)
    refine List.mem_map.mpr ⟨⟨longName i, row.version, row.dekVersion, row.nonce⟩, ?_, rfl⟩
    exact List.mem_map.mpr ⟨(longName i, row.version, row.dekVersion, row.nonce),
      mem_secretEntries.mpr ⟨row, hrow, rfl⟩, rfl⟩
  have hnodup : ((List.range k).map longName).Nodup :=
    List.nodup_range.map fun _ _ => longName_inj
  simpa using (List.subperm_of_subset hnodup hsub).length_le

theorem Stocked.group_frames (h : Stocked k db) : (frame SyncMessage.encode
    (.group "g" (longSnapshot db).acl (longSnapshot db).deks)).isSome := by
  obtain ⟨t, u, hg, hv, log, rfl⟩ := h.tables
  show (frame SyncMessage.encode
    (.group "g" (longSnapshot longBase).acl (longSnapshot longBase).deks)).isSome
  decide +kernel

theorem Stocked.chunk_frames (h : Stocked k db) (hk : k ≤ 2000) {c : List SecretEntry}
    (hlen : c.length ≤ Sync.syncSecretsChunk) (hc : c ⊆ (longSnapshot db).secrets) :
    (frame SyncMessage.encode (.groupSecrets "g" c)).isSome := by
  have hsum : (c.map fun e => e.encode.length).sum ≤ c.length * 7100 := by
    have hbound : ∀ n ∈ c.map fun e => e.encode.length, n ≤ 7100 := by
      intro n hn
      obtain ⟨e, he, rfl⟩ := List.mem_map.mp hn
      obtain ⟨i, hi, -, hle⟩ := h.entry (hc he)
      omega
    simpa using List.sum_le_card_nsmul _ 7100 hbound
  have hchunk : Sync.syncSecretsChunk = 1000 := rfl
  have hhead := headLen_le c.length
  have hcap : syncMaxMsg = 8388608 := rfl
  rw [frame_isSome_iff, length_encode_groupSecrets, show (textString "g").length = 2 from rfl]
  omega

/-- 2000 個の名前は、一つの要求に入らない。 -/
theorem Stocked.fetch_overflows (h : Stocked k db) (hk : 2000 ≤ k) : frame SyncRequest.encode
    (.fetchSecrets "g" ((longSnapshot db).secrets.map (·.name))) = none := by
  have hsum : (longSnapshot db).secrets.length * 5000 ≤
      (((longSnapshot db).secrets.map (·.name)).map fun n => (textString n).length).sum := by
    have hbound : ∀ n ∈ ((longSnapshot db).secrets.map (·.name)).map fun n => (textString n).length,
        5000 ≤ n := by
      intro n hn
      obtain ⟨_, hname, rfl⟩ := List.mem_map.mp hn
      obtain ⟨e, he, rfl⟩ := List.mem_map.mp hname
      obtain ⟨i, -, hname, -⟩ := h.entry he
      rw [hname, length_textString, length_utf8_longName]
      omega
    simpa using List.card_nsmul_le_sum _ 5000 hbound
  have hlen := h.length_names
  have hcap : syncMaxMsg = 8388608 := rfl
  rw [← Option.not_isSome_iff_eq_none, frame_isSome_iff, length_encode_fetchSecrets]
  omega

/--
一覧の chunk はすべて送れるのに、取り寄せの要求は frame に収まらない。

初期化した node に 2000 回書いた store である。空の mirror は名前をすべて求める。
-/
theorem listed_but_not_fetchable :
    let db := Node.exec plain sampleDb (longPuts 2000)
    let snap := SyncServer.snapshotGroup db 1 "g" (samplePeer 'a')
    SyncServer.syncReadAuthorized db (samplePeer 'a') "g" = some 1 ∧
      (∀ m ∈ Sync.groupMessages snap, (frame SyncMessage.encode m).isSome) ∧
      frame SyncRequest.encode (.fetchSecrets "g" (secretsNeedingFetch Db.empty snap)) = none := by
  intro db snap
  have h : Stocked 2000 db := stocked_longPuts 2000
  clear_value db
  refine ⟨?_, fun m hm => ?_, h.fetch_overflows le_rfl⟩
  · obtain ⟨t, u, hg, hv, log, rfl⟩ := h.tables
    show SyncServer.syncReadAuthorized longBase (samplePeer 'a') "g" = some 1
    decide
  · rcases List.mem_cons.mp hm with rfl | hm
    · exact h.group_frames
    · obtain ⟨c, hc, rfl⟩ := List.mem_map.mp hm
      split at hc
      · obtain rfl := List.mem_singleton.mp hc
        exact h.chunk_frames le_rfl (Nat.zero_le _) (List.nil_subset _)
      · exact h.chunk_frames le_rfl (length_le_of_mem_chunksFrom (by decide) hc)
          (subset_of_mem_chunks hc)

end Long

end SecretBunker
