import SecretBunker.Store.Query

/-!
# `secret-bunker-sync/1` の message

`src/sync.rs` の型と、message の列と group の状態の行き来。
送る側は一つの snapshot を `Group` と、`GroupSecrets` の chunk に分けて流し、
受ける側は同じ名前の message を一つの `GroupSyncState` に併せる。

frame の符号化はここでは扱わず、stream は message の列とする。
-/

namespace SecretBunker

/-- 同期で渡す ACL の一行。 -/
structure AclEntry where
  identityName : String
  endpointId : String
  perms : UInt8
  deriving DecidableEq

/-- 同期で渡す、読み手宛ての wrap。 -/
structure DekEntry where
  version : Nat
  wrapped : Bytes
  deriving DecidableEq

/-- 同期で渡す secret の見出し。暗号文は含まない。 -/
structure SecretEntry where
  name : String
  currentVersion : Nat
  dekVersion : Nat
  nonce : Bytes
  deriving DecidableEq

/-- 受け取った group の最新の状態。mirror が収束する先である。 -/
structure GroupSyncState where
  name : String
  acl : List AclEntry := []
  deks : List DekEntry := []
  secrets : List SecretEntry := []
  deriving DecidableEq

/-- 権威 node から取った secret の現在の version。 -/
structure FetchedSecret extends SecretDataRow where
  name : String
  deriving DecidableEq

/-- replica の送る要求。 -/
inductive SyncRequest where
  | hello
  | fetchGroup (group : String)
  | fetchSecrets (group : String) (names : List String)
  deriving DecidableEq

/-- server の送る message。 -/
inductive SyncMessage where
  | syncDenied
  | group (name : String) (acl : List AclEntry) (deks : List DekEntry)
  | groupSecrets (group : String) (secrets : List SecretEntry)
  | manifestDone
  | fetchDone
  | changed (group : String)
  | scopeChanged
  | secretData (secret : FetchedSecret)
  deriving DecidableEq

namespace Sync

/-! ## 送る側 -/

/-- `GroupSecrets` 一つに載せる行の数の上限。 -/
def syncSecretsChunk : Nat := 1000

/-- 長さ `size` ずつに切る。`current` は詰めかけの chunk である。 -/
def chunksFrom {α : Type} (size : Nat) : List α → List α → List (List α)
  | [], current => if current.isEmpty then [] else [current]
  | x :: rest, current =>
    if current.length + 1 = size then (current ++ [x]) :: chunksFrom size rest []
    else chunksFrom size rest (current ++ [x])

/-- `slice::chunks`。 -/
def chunks {α : Type} (size : Nat) (l : List α) : List (List α) := chunksFrom size l []

theorem flatten_chunksFrom {α : Type} (size : Nat) (l current : List α) :
    (chunksFrom size l current).flatten = current ++ l := by
  induction l generalizing current with
  | nil =>
    unfold chunksFrom
    cases current <;> simp
  | cons x rest ih =>
    unfold chunksFrom
    split
    · rw [List.flatten_cons, ih, List.nil_append, List.append_assoc]
      rfl
    · rw [ih, List.append_assoc]
      rfl

/-- `send_group_snapshot` が書く message の列。secret が無くても空の一覧を一つ送る。 -/
def groupMessages (snap : GroupSyncState) : List SyncMessage :=
  let listing := if snap.secrets.isEmpty then [[]] else chunks syncSecretsChunk snap.secrets
  .group snap.name snap.acl snap.deks :: listing.map (.groupSecrets snap.name)

/-! ## 受ける側 -/

/-- 同じ名前の状態があれば書き換え、無ければ末尾に足す。 -/
def mergeInto (stash : List GroupSyncState) (name : String)
    (f : GroupSyncState → GroupSyncState) : List GroupSyncState :=
  match stash with
  | [] => [f { name }]
  | s :: rest => if s.name = name then f s :: rest else s :: mergeInto rest name f

/-- `Group` を併せる。 -/
def addGroup (acl : List AclEntry) (deks : List DekEntry) (s : GroupSyncState) : GroupSyncState :=
  { s with acl := s.acl ++ acl, deks := s.deks ++ deks }

/-- `GroupSecrets` を併せる。 -/
def addSecrets (secrets : List SecretEntry) (s : GroupSyncState) : GroupSyncState :=
  { s with secrets := s.secrets ++ secrets }

/-- manifest の message を一つ併せる。manifest に現れない message なら失敗する。 -/
def merge (stash : List GroupSyncState) : SyncMessage → Option (List GroupSyncState)
  | .group name acl deks => some (mergeInto stash name (addGroup acl deks))
  | .groupSecrets group secrets => some (mergeInto stash group (addSecrets secrets))
  | _ => none

/-- `fetch_group_state` の受信の loop。内側の `none` は拒否、外側の `none` は失敗である。 -/
def collectGroup (state : GroupSyncState) : List SyncMessage → Option (Option GroupSyncState)
  | .group name acl deks :: rest =>
    if name = state.name then collectGroup (addGroup acl deks state) rest else none
  | .groupSecrets listed secrets :: rest =>
    if listed = state.name then collectGroup (addSecrets secrets state) rest else none
  | .fetchDone :: _ => some (some state)
  | .syncDenied :: _ => some none
  | _ => none

/-- `fetch_secrets` の受信の loop。 -/
def collectSecrets (out : List FetchedSecret) :
    List SyncMessage → Option (Option (List FetchedSecret))
  | .secretData secret :: rest => collectSecrets (out ++ [secret]) rest
  | .fetchDone :: _ => some (some out)
  | .syncDenied :: _ => some none
  | _ => none

/-! ## 行き来 -/

/-- chunk を順に併せると、元の一覧が末尾に付く。 -/
theorem collectGroup_listing (state : GroupSyncState) (listing : List (List SecretEntry)) :
    collectGroup state (listing.map (.groupSecrets state.name) ++ [.fetchDone]) =
      some (some (addSecrets listing.flatten state)) := by
  induction listing generalizing state with
  | nil => simp [collectGroup, addSecrets]
  | cons chunk rest ih =>
    rw [List.map_cons, List.cons_append, collectGroup, if_pos rfl]
    refine (ih (addSecrets chunk state)).trans ?_
    simp [addSecrets]

theorem listing_flatten (secrets : List SecretEntry) :
    (if secrets.isEmpty then [[]] else chunks syncSecretsChunk secrets).flatten = secrets := by
  split
  · next h =>
    rw [List.isEmpty_iff.mp h]
    rfl
  · exact flatten_chunksFrom _ _ _

/-- 一つの group の返事は、送られた snapshot に戻る。 -/
theorem collectGroup_groupMessages (snap : GroupSyncState) :
    collectGroup { name := snap.name } (groupMessages snap ++ [.fetchDone]) = some (some snap) := by
  unfold groupMessages
  rw [List.cons_append, collectGroup, if_pos rfl]
  refine (collectGroup_listing (addGroup snap.acl snap.deks { name := snap.name }) _).trans ?_
  rw [listing_flatten]
  rfl

/-- 組み立てた状態の名前は、求めた名前のままである。 -/
theorem collectGroup_name {state final : GroupSyncState} {messages : List SyncMessage}
    (h : collectGroup state messages = some (some final)) : final.name = state.name := by
  fun_induction collectGroup state messages with
  | case1 state acl deks rest ih => exact ih h
  | case3 state secrets rest ih => exact ih h
  | case5 =>
    cases h
    rfl
  | _ => cases h

theorem collectSecrets_data (out rows : List FetchedSecret) :
    collectSecrets out (rows.map .secretData ++ [.fetchDone]) = some (some (out ++ rows)) := by
  induction rows generalizing out with
  | nil => simp [collectSecrets]
  | cons row rest ih =>
    rw [List.map_cons, List.cons_append, collectSecrets, ih, List.append_assoc]
    rfl

theorem mergeInto_append (stash : List GroupSyncState) (s : GroupSyncState)
    (f : GroupSyncState → GroupSyncState) (h : ∀ t ∈ stash, t.name ≠ s.name) :
    mergeInto (stash ++ [s]) s.name f = stash ++ [f s] := by
  induction stash with
  | nil => exact if_pos rfl
  | cons t rest ih =>
    rw [List.cons_append, mergeInto, if_neg (h t (List.mem_cons_self ..)),
      ih fun u hu => h u (List.mem_cons_of_mem _ hu)]
    rfl

theorem mergeInto_absent (stash : List GroupSyncState) (name : String)
    (f : GroupSyncState → GroupSyncState) (h : ∀ t ∈ stash, t.name ≠ name) :
    mergeInto stash name f = stash ++ [f { name }] := by
  induction stash with
  | nil => rfl
  | cons t rest ih =>
    rw [mergeInto, if_neg (h t (List.mem_cons_self ..)),
      ih fun u hu => h u (List.mem_cons_of_mem _ hu)]
    rfl

theorem merge_listing (stash : List GroupSyncState) (s : GroupSyncState)
    (listing : List (List SecretEntry)) (h : ∀ t ∈ stash, t.name ≠ s.name) :
    (listing.map (SyncMessage.groupSecrets s.name)).foldlM merge (stash ++ [s]) =
      some (stash ++ [addSecrets listing.flatten s]) := by
  induction listing generalizing s with
  | nil => simp [addSecrets]
  | cons chunk rest ih =>
    rw [List.map_cons, List.foldlM_cons, merge, mergeInto_append stash s _ h]
    refine (ih (addSecrets chunk s) h).trans ?_
    simp [addSecrets]

/-- まだ無い group の snapshot を併せると、そのまま stash の末尾に付く。 -/
theorem merge_groupMessages (stash : List GroupSyncState) (snap : GroupSyncState)
    (h : ∀ t ∈ stash, t.name ≠ snap.name) :
    (groupMessages snap).foldlM merge stash = some (stash ++ [snap]) := by
  unfold groupMessages
  rw [List.foldlM_cons, merge, mergeInto_absent stash snap.name _ h]
  refine (merge_listing stash (addGroup snap.acl snap.deks { name := snap.name }) _ h).trans ?_
  rw [listing_flatten]
  rfl

end Sync

end SecretBunker
