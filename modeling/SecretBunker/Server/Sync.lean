import SecretBunker.Lib.Broadcast
import SecretBunker.Server.Handler
import SecretBunker.Sync

/-!
# 権威 node の同期の stream

`src/server.rs` の `secret-bunker-sync/1`。stream 一つが一つの task で、store の lock は
一つの読み取りの間だけ握る。したがって task の一歩が lock 一回ぶんで、
その間にほかの要求や stream が割り込む。送信は lock の外で行われ store を見ないので、
読み取りの一歩に含める。
-/

namespace SecretBunker

open Broadcast

namespace SyncServer

variable (prim : Primitives)

/-- event の channel の容量。 -/
def eventsCapacity : Nat := 1024

/-! ## 一度の lock の中の読み取り -/

/-- 登録された peer の、明示的な READ を確かめる。 -/
def syncReadAuthorized (db : Db) (remote group : String) : Option Nat := do
  let ident ← Store.identityByEndpoint db remote
  let groupId ← Store.groupId db group
  if hasBit (Store.perms db ident.id groupId) permRead then some groupId else none

/-- 一つの group の manifest。自分宛ての wrap が無い version は省く。 -/
def snapshotGroup (db : Db) (groupId : Nat) (name remote : String) : GroupSyncState where
  name := name
  acl := (Store.aclEntriesFull db groupId).map fun e => ⟨e.1, e.2.1, e.2.2⟩
  deks := (Store.dekVersions db groupId).filterMap fun version =>
    (Store.dekWrap db groupId version remote).map fun wrapped => ⟨version, wrapped⟩
  secrets := (Store.secretEntries db groupId).map fun e => ⟨e.1, e.2.1, e.2.2.1, e.2.2.2⟩

/-- 登録された peer の同期の範囲。 -/
def scopeOf (db : Db) (remote : String) : Option (List (Nat × String)) :=
  (Store.identityByEndpoint db remote).map fun ident => Store.readScope db ident.id

/-- 範囲の group の名前。登録が無ければ空である。 -/
def currentScopeNames (db : Db) (remote : String) : List String :=
  ((scopeOf db remote).getD []).map Prod.snd

/-- 認可の結果を audit に残す。 -/
def auditSync (db : Db) (now : Int) (remote op target : String) (authorized : Bool) : Db :=
  Store.audit db prim now remote op target (if authorized then "ok" else "denied")

/-- `Hello` の範囲の読み取り。 -/
def helloScope (db : Db) (now : Int) (remote : String) : Option (List (Nat × String)) × Db :=
  (scopeOf db remote, auditSync prim db now remote "sync-hello" "" (scopeOf db remote).isSome)

/-- `FetchGroup`。認可と snapshot は同じ lock の中にある。 -/
def fetchGroup (db : Db) (now : Int) (remote group : String) : List SyncMessage × Db :=
  (match syncReadAuthorized db remote group with
    | some groupId => Sync.groupMessages (snapshotGroup db groupId group remote) ++ [.fetchDone]
    | none => [.syncDenied],
    auditSync prim db now remote "sync-fetch-group" group (syncReadAuthorized db remote group).isSome)

/-- `FetchSecrets` の認可。行はこの後、一つずつ別の lock で読む。 -/
def authorizeFetchSecrets (db : Db) (now : Int) (remote group : String) : Option Nat × Db :=
  (syncReadAuthorized db remote group,
    auditSync prim db now remote "sync-fetch-secrets" group
      (syncReadAuthorized db remote group).isSome)

/-- 名前一つの行。もう無い名前は黙って飛ばす。 -/
def secretMessage (db : Db) (groupId : Nat) (name : String) : List SyncMessage :=
  ((Store.secretDataCurrent db groupId name).map fun row =>
    SyncMessage.secretData { row with name }).toList

/-! ## stream の task -/

/-- stream の task の居場所。`opened` は要求を読んだところである。 -/
inductive Task where
  | opened
  | subscribed
  | manifest (cached : List String) (todo : List (Nat × String))
  | live (cached : List String)
  | batching (cached : List String) (lagged : Bool) (batch : List String)
  | rows (groupId : Nat) (group : String) (names : List String)
  | ended
  deriving DecidableEq

/-- 開いている同期の stream。 -/
structure Stream where
  remote : String
  request : SyncRequest
  task : Task
  events : Receiver String
  deriving DecidableEq

/-- task が進むきっかけ。`recv` は event を受け取ること、`timeout` は debounce の窓が閉じること。 -/
inductive Trigger where
  | proceed
  | recv
  | timeout
  deriving DecidableEq

/-- 認証された peer が開いた stream。 -/
def accept (remote : String) (request : SyncRequest) : Stream := ⟨remote, request, .opened, .fresh⟩

/-- 受け取った event を batch に入れる。 -/
def gather (lagged : Bool) (batch : List String) : Option String → Bool × List String
  | some group => (lagged, batch.insert group)
  | none => (true, batch)

/-- 窓が閉じたときに送る message と、覚え直した範囲。 -/
def closeBatch (scope cached : List String) (lagged : Bool) (batch : List String) :
    List String × List SyncMessage :=
  if lagged ∨ scope ≠ cached then (scope, [.scopeChanged])
  -- `cached` は名前の順なので、共通部分も名前の順に並ぶ
  else (cached, (cached.filter (· ∈ batch)).map .changed)

/-- task の一歩。進めないきっかけなら `none`。 -/
def Stream.step (s : Stream) (now : Int) (trigger : Trigger) (db : Db) :
    Option (Stream × List SyncMessage × Db) :=
  match s.task, trigger with
  | .opened, .proceed =>
    match s.request with
    | .hello => some ({ s with task := .subscribed, events := .fresh }, [], db)
    | .fetchGroup group =>
      let (messages, db) := fetchGroup prim db now s.remote group
      some ({ s with task := .ended }, messages, db)
    | .fetchSecrets group names =>
      match authorizeFetchSecrets prim db now s.remote group with
      | (some groupId, db) => some ({ s with task := .rows groupId group names }, [], db)
      | (none, db) => some ({ s with task := .ended }, [.syncDenied], db)
  | .subscribed, .proceed =>
    match helloScope prim db now s.remote with
    | (some scope, db) => some ({ s with task := .manifest (scope.map Prod.snd) scope }, [], db)
    | (none, db) => some ({ s with task := .ended }, [.syncDenied], db)
  | .manifest cached ((groupId, name) :: todo), .proceed =>
    some ({ s with task := .manifest cached todo },
      Sync.groupMessages (snapshotGroup db groupId name s.remote), db)
  | .manifest cached [], .proceed => some ({ s with task := .live cached }, [.manifestDone], db)
  | .live cached, .recv =>
    s.events.recv.map fun (got, events) =>
      let (lagged, batch) := gather false [] got
      ({ s with task := .batching cached lagged batch, events }, [], db)
  | .batching cached lagged batch, .recv =>
    s.events.recv.map fun (got, events) =>
      let (lagged, batch) := gather lagged batch got
      ({ s with task := .batching cached lagged batch, events }, [], db)
  | .batching cached lagged batch, .timeout =>
    let (cached, messages) := closeBatch (currentScopeNames db s.remote) cached lagged batch
    some ({ s with task := .live cached }, messages, db)
  | .rows groupId group (name :: names), .proceed =>
    some ({ s with task := .rows groupId group names }, secretMessage db groupId name, db)
  | .rows _ _ [], .proceed => some ({ s with task := .ended }, [.fetchDone], db)
  | _, _ => none

/-- 成功した要求の group が、購読している stream に届く。 -/
def Stream.publish (groups : List String) (s : Stream) : Stream :=
  { s with events := s.events.sendAll eventsCapacity groups }

/-! ## 読み取りの中身 -/

variable {db : Db}

/-- 同期で読めるのは、READ を持つ group である。 -/
theorem syncReadAuthorized_eq_some {remote group : String} {gid : Nat} :
    syncReadAuthorized db remote group = some gid ↔
      Store.groupId db group = some gid ∧
        ∃ i ∈ db.identity, i.endpointId = remote ∧ hasBit (Store.perms db i.id gid) permRead = true := by
  unfold syncReadAuthorized
  constructor
  · intro h
    obtain ⟨i, hi, h⟩ := Option.bind_eq_some_iff.mp h
    obtain ⟨gid', hg, h⟩ := Option.bind_eq_some_iff.mp h
    split at h
    · next hb =>
      cases h
      obtain ⟨hi, he⟩ := Store.identityByEndpoint_eq_some.mp hi
      exact ⟨hg, i, hi, he, hb⟩
    · cases h
  · rintro ⟨hg, i, hi, he, hb⟩
    rw [Store.identityByEndpoint_eq_some.mpr ⟨hi, he⟩, hg]
    exact if_pos hb

theorem mem_readScope {iid gid : Nat} {name : String} :
    (gid, name) ∈ Store.readScope db iid ↔
      Store.groupId db name = some gid ∧ hasBit (Store.perms db iid gid) permRead = true := by
  unfold Store.readScope
  simp only [Relational.mem_sortOn, List.mem_map, List.mem_filter, Store.groupId_eq_some]
  constructor
  · rintro ⟨g, ⟨hg, hb⟩, he⟩
    cases he
    exact ⟨hg, hb⟩
  · rintro ⟨hg, hb⟩
    exact ⟨_, ⟨hg, hb⟩, rfl⟩

/-- `Hello` の範囲は、`FetchGroup` が認める group とその id である。 -/
theorem mem_scopeOf {remote name : String} {gid : Nat} {scope : List (Nat × String)}
    (h : scopeOf db remote = some scope) :
    (gid, name) ∈ scope ↔ syncReadAuthorized db remote name = some gid := by
  obtain ⟨i, hi, rfl⟩ := Option.map_eq_some_iff.mp h
  obtain ⟨hm, rfl⟩ := Store.identityByEndpoint_eq_some.mp hi
  rw [mem_readScope, syncReadAuthorized_eq_some]
  refine and_congr_right fun _ => ⟨fun hb => ⟨i, hm, rfl, hb⟩, ?_⟩
  rintro ⟨j, hj, he, hb⟩
  rwa [Relational.Table.eq_of_conflict hj hm (Or.inr (Or.inl he))] at hb

end SyncServer

end SecretBunker
