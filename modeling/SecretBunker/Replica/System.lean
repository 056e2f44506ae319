import SecretBunker.Replica.Session
import SecretBunker.Replica.Snapshot
import SecretBunker.Server.Written

/-!
# 権威 node と replica を繋いだ系

権威 node の store を client の要求が変え、Hello の stream の task と replica の同期の task が
その間を好きな順に進む。stream に送られた message は、読まれるまで `wire` に並ぶ。
取り寄せの stream は replica の手続きの動作として走り、lock 一回ぶんずつ進む。

`Served` は stream の一歩、`Moves` は系の一歩ですることを、それぞれ一度だけ場合に分ける。
`Underway` は、manifest の途中で stash と `wire` を合わせるとどの snapshot の列になるかを述べる。
-/

namespace SecretBunker

open Broadcast Interleaving Relational Store SyncServer

theorem SameRows.stable {prim : Primitives} {db db' : Db} (h : SameRows db db') :
    Stable prim db db' := by
  obtain ⟨log, rfl⟩ := h
  exact ⟨fun _ h => h, fun _ h => h, fun _ h => h⟩

theorem SameRows.attested {prim : Primitives} {inner : Inner} {wrote : Writing} {db db' : Db}
    (h : SameRows db db') (ha : Attested prim inner wrote db) : Attested prim inner wrote db' := by
  obtain ⟨log, rfl⟩ := h
  exact ha.audit log

namespace Replica

/-- 権威 node の store を持つ session と、Hello の stream。 -/
structure System where
  session : Session Db
  stream : Option Stream
  /-- 送られて、まだ読まれていない message。 -/
  wire : List SyncMessage

namespace System

/-- 系の一歩。 -/
inductive Act where
  /-- 権威 node が要求を一つ処理する。 -/
  | request (amb : Ambient) (remote : String) (req : Request)
  /-- stream の task が一歩進む。 -/
  | serve (trigger : Trigger)
  | connect
  /-- replica が message を一つ読む。 -/
  | receive
  | advance
  /-- stream か接続が失敗する。手続きの途中なら、手続きごと打ち切られる。 -/
  | lose
  | shutdown
  | tick (now : Int)
  /-- 読み手に答える。 -/
  | read (log : List AuditRow)

def upstream (s : System) : Db := s.session.link.upstream

def mirror (s : System) : Db := s.session.link.mirror

/-- 空の mirror から始まる系。 -/
def start (db : Db) : System := ⟨⟨⟨db, .empty, 0, [], false, none⟩, .down⟩, none, []⟩

/-- 権威 node の store を書き換えた session。 -/
def withUpstream (s : Session Db) (db : Db) : Session Db :=
  { s with link := { s.link with upstream := db } }

variable (prim : Primitives) (inner : Inner) (own : String)

/-- session の歩み。 -/
def act (s : System) (a : Replica.Act) : Session Db := s.session.step (node prim own) prim own a

/-- 新しい Hello の stream を開く。前の stream の message はもう読まれない。 -/
def hello (session : Session Db) : System := ⟨session, some (SyncServer.accept own .hello), []⟩

def receive (s : System) : System :=
  match s.session.phase, s.wire with
  | .live _, .scopeChanged :: _ => hello own (s.act prim own (.receive .scopeChanged))
  | .live _, message :: wire | .manifest _ _, message :: wire =>
    { s with session := s.act prim own (.receive message), wire }
  | _, _ => s

/-- 接続を離れたら、stream も終わる。 -/
def hangUp (s : System) : System :=
  match s.session.phase with
  | .down | .stopped => ⟨s.session, none, []⟩
  | _ => s

/-- 要求を一つ処理し、変えた group を stream に知らせる。 -/
def handle (s : System) (amb : Ambient) (remote : String) (req : Request) : System :=
  let handled := Bunker.handle prim inner amb s.upstream remote req
  { s with
    session := withUpstream s.session handled.db
    stream := s.stream.map (Stream.publish handled.published) }

def step (s : System) : Act → System
  | .request amb remote req => s.handle prim inner amb remote req
  | .serve trigger =>
    match s.stream.bind fun st => st.step prim s.session.link.now trigger s.upstream with
    | some (st, sent, db) => ⟨withUpstream s.session db, some st, s.wire ++ sent⟩
    | none => s
  | .connect =>
    match s.session.phase with
    | .down => hello own (s.act prim own .connect)
    | _ => s
  | .receive => (s.receive prim own).hangUp
  | .advance => hangUp { s with session := s.act prim own .advance }
  | .lose =>
    match s.session.phase with
    | .stopped => s
    | _ => hangUp { s with session := disconnect s.session.link }
  | .shutdown => hangUp { s with session := s.act prim own .shutdown }
  | .tick now => { s with session := s.act prim own (.tick now) }
  | .read log => { s with session := s.act prim own (.serve log) }

def exec (s : System) (acts : List Act) : System := acts.foldl (step prim inner own) s

/-! ## Hello の stream の一歩 -/

/-- Hello の stream の task。 -/
structure Hosting (st : Stream) : Prop where
  remote : st.remote = own
  request : st.request = .hello
  task : ∀ gid group names, st.task ≠ .rows gid group names

/-- Hello の stream の一歩の場合分け。送る message と、一歩の後の store も述べる。 -/
inductive Served (db : Db) : Stream → Stream → List SyncMessage → Db → Prop
  | subscribed {e : Receiver String} :
      Served db ⟨own, .hello, .opened, e⟩ ⟨own, .hello, .subscribed, .fresh⟩ [] db
  | denied {e : Receiver String} {log : List AuditRow} (h : scopeOf db own = none) :
      Served db ⟨own, .hello, .subscribed, e⟩ ⟨own, .hello, .ended, e⟩ [.syncDenied]
        (db.withAudit log)
  | admitted {e : Receiver String} {scope : List (Nat × String)} {log : List AuditRow}
      (h : scopeOf db own = some scope) :
      Served db ⟨own, .hello, .subscribed, e⟩
        ⟨own, .hello, .manifest (scope.map Prod.snd) scope, e⟩ [] (db.withAudit log)
  | snapshot {e : Receiver String} {cached : List String} {gid : Nat} {name : String}
      {todo : List (Nat × String)} :
      Served db ⟨own, .hello, .manifest cached ((gid, name) :: todo), e⟩
        ⟨own, .hello, .manifest cached todo, e⟩
        (Sync.groupMessages (snapshotGroup db gid name own)) db
  | listed {e : Receiver String} {cached : List String} :
      Served db ⟨own, .hello, .manifest cached [], e⟩ ⟨own, .hello, .live cached, e⟩
        [.manifestDone] db
  | gathered {task : Task} {cached batch : List String} {lagged : Bool} {e e' : Receiver String}
      {got : Option String}
      (ht : task = .live cached ∧ lagged = false ∧ batch = [] ∨ task = .batching cached lagged batch)
      (h : e.recv = some (got, e')) :
      Served db ⟨own, .hello, task, e⟩
        ⟨own, .hello, .batching cached (gather lagged batch got).1 (gather lagged batch got).2, e'⟩
        [] db
  | closed {cached batch : List String} {lagged : Bool} {e : Receiver String} :
      Served db ⟨own, .hello, .batching cached lagged batch, e⟩
        ⟨own, .hello, .live (closeBatch (currentScopeNames db own) cached lagged batch).1, e⟩
        (closeBatch (currentScopeNames db own) cached lagged batch).2 db

variable {prim inner own} {db db' : Db} {st st' : Stream} {sent : List SyncMessage}

/-- stream の一歩は、`Served` のどれかである。 -/
theorem served_of_step {now : Int} {trigger : Trigger} (hst : Hosting own st)
    (h : st.step prim now trigger db = some (st', sent, db')) : Served own db st st' sent db' := by
  obtain ⟨hremote, hrequest, htask⟩ := hst
  obtain ⟨remote, request, task, events⟩ := st
  dsimp only at hremote hrequest htask
  subst hremote hrequest
  cases task with
  | opened =>
    cases trigger with
    | proceed =>
      cases h
      exact .subscribed
    | _ => cases h
  | subscribed =>
    cases trigger with
    | proceed =>
      dsimp only [Stream.step, helloScope] at h
      cases hs : scopeOf db remote with
      | none =>
        rw [hs] at h
        cases h
        exact .denied hs
      | some scope =>
        rw [hs] at h
        cases h
        exact .admitted hs
    | _ => cases h
  | manifest cached todo =>
    cases trigger with
    | proceed =>
      cases todo with
      | nil =>
        cases h
        exact .listed
      | cons x todo =>
        cases h
        exact .snapshot
    | _ => cases todo <;> cases h
  | live cached =>
    cases trigger with
    | recv =>
      obtain ⟨⟨got, events'⟩, hrecv, hx⟩ := Option.map_eq_some_iff.mp h
      cases hx
      exact .gathered (Or.inl ⟨rfl, rfl, rfl⟩) hrecv
    | _ => cases h
  | batching cached lagged batch =>
    cases trigger with
    | recv =>
      obtain ⟨⟨got, events'⟩, hrecv, hx⟩ := Option.map_eq_some_iff.mp h
      cases hx
      exact .gathered (Or.inr rfl) hrecv
    | timeout =>
      cases h
      exact .closed
    | proceed => cases h
  | rows gid group names => exact absurd rfl (htask gid group names)
  | ended => cases trigger <;> cases h

theorem Served.hosting (h : Served own db st st' sent db') : Hosting own st' := by
  cases h <;> exact ⟨rfl, rfl, fun _ _ _ hc => nomatch hc⟩

theorem Served.same (h : Served own db st st' sent db') : SameRows db db' := by
  cases h with
  | denied h => exact ⟨_, rfl⟩
  | admitted h => exact ⟨_, rfl⟩
  | _ => exact .refl db

theorem hosting_accept : Hosting own (SyncServer.accept own .hello) :=
  ⟨rfl, rfl, fun _ _ _ hc => nomatch hc⟩

theorem Hosting.publish (h : Hosting own st) (groups : List String) :
    Hosting own (st.publish groups) := ⟨h.remote, h.request, h.task⟩

/-! ## 系の一歩 -/

/-- 要求のほかの、系の一歩の場合分け。 -/
inductive Moves (prim : Primitives) (own : String) : System → System → Prop
  | served {l : Link Db} {phase : Phase Db} {st st' : Stream} {wire sent : List SyncMessage} {db : Db}
      (h : Served own l.upstream st st' sent db) :
      Moves prim own ⟨⟨l, phase⟩, some st, wire⟩
        ⟨⟨{ l with upstream := db }, phase⟩, some st', wire ++ sent⟩
  | idle {l l' : Link Db} {phase : Phase Db} {stream : Option Stream} {wire : List SyncMessage}
      (h : l.Same l') (hup : l'.upstream = l.upstream) :
      Moves prim own ⟨⟨l, phase⟩, stream, wire⟩ ⟨⟨l', phase⟩, stream, wire⟩
  | opened {l : Link Db} {phase : Phase Db} {stream : Option Stream} {wire : List SyncMessage} :
      Moves prim own ⟨⟨l, phase⟩, stream, wire⟩ (hello own ⟨l, .manifest false []⟩)
  | greeted {l l' : Link Db} {ok : Bool} {stash stash' : List GroupSyncState} {message : SyncMessage}
      {stream : Option Stream} {wire : List SyncMessage} (h : Sync.merge stash message = some stash')
      (hl : l' = l ∨ l' = setConnected l) :
      Moves prim own ⟨⟨l, .manifest ok stash⟩, stream, message :: wire⟩
        ⟨⟨l', .manifest true stash'⟩, stream, wire⟩
  | listed {l l' : Link Db} {ok : Bool} {stash : List GroupSyncState} {stream : Option Stream}
      {wire : List SyncMessage} (hl : l' = l ∨ l' = setConnected l) :
      Moves prim own ⟨⟨l, .manifest ok stash⟩, stream, .manifestDone :: wire⟩
        ⟨Replica.start (node prim own) prim own l' (.resync stash), stream, wire⟩
  | pushed {l : Link Db} {job : Job} {group : String} {stream : Option Stream}
      {wire : List SyncMessage} :
      Moves prim own ⟨⟨l, .live job⟩, stream, .changed group :: wire⟩
        ⟨Replica.start (node prim own) prim own l (.group group), stream, wire⟩
  | acted {l : Link Db} {job : Job} {update : Link Db → Link Db}
      {next : Link Db → Prog (Link Db) Unit} {stream : Option Stream} {wire : List SyncMessage} :
      Moves prim own ⟨⟨l, .working job (.act update next)⟩, stream, wire⟩
        ⟨⟨update l, .working job (next l)⟩, stream, wire⟩
  | finished {l : Link Db} {job : Job} {stream : Option Stream} {wire : List SyncMessage} :
      Moves prim own ⟨⟨l, .working job (.ret ())⟩, stream, wire⟩ ⟨⟨l, .live job⟩, stream, wire⟩
  /-- 接続を離れた。 -/
  | left {l l' : Link Db} {phase phase' : Phase Db} {stream : Option Stream}
      {wire : List SyncMessage} (hl : l.Same l') (hup : l'.upstream = l.upstream)
      (hp : phase' = .down ∨ phase' = .stopped) :
      Moves prim own ⟨⟨l, phase⟩, stream, wire⟩ ⟨⟨l', phase'⟩, none, []⟩

theorem connected_same {l l' : Link Db} (h : l' = l ∨ l' = setConnected l) :
    l.Same l' ∧ l'.upstream = l.upstream := by
  rcases h with rfl | rfl
  · exact ⟨.refl _, rfl⟩
  · unfold setConnected
    split <;> exact ⟨⟨.refl _, .refl _⟩, rfl⟩

theorem disconnected_same (l : Link Db) :
    l.Same (disconnect l).link ∧ (disconnect l).link.upstream = l.upstream := by
  show l.Same (setDisconnected l) ∧ _
  unfold disconnect setDisconnected
  split <;> exact ⟨⟨.refl _, .refl _⟩, rfl⟩

theorem moves_disconnect {l l' : Link Db} (h : l' = l ∨ l' = setConnected l) (phase : Phase Db)
    (stream : Option Stream) (wire : List SyncMessage) :
    Moves prim own ⟨⟨l, phase⟩, stream, wire⟩ ⟨disconnect l', none, []⟩ := by
  obtain ⟨hs, hup⟩ := connected_same h
  obtain ⟨hs', hup'⟩ := disconnected_same l'
  exact .left (hs.trans hs') (hup'.trans hup) (Or.inl rfl)

theorem moves_receiveManifest (ok : Bool) (stash : List GroupSyncState) (l : Link Db)
    (message : SyncMessage) (stream : Option Stream) (wire : List SyncMessage) :
    Moves prim own ⟨⟨l, .manifest ok stash⟩, stream, message :: wire⟩
      (hangUp ⟨receiveManifest (node prim own) prim own ok stash l message, stream, wire⟩) := by
  have hl : (if ok then l else setConnected l) = l ∨ (if ok then l else setConnected l) =
      setConnected l := by
    cases ok with
    | true => exact Or.inl rfl
    | false => exact Or.inr rfl
  unfold receiveManifest
  split
  · exact moves_disconnect (Or.inl rfl) _ _ _
  · dsimp only
    split
    · exact .listed hl
    · split
      · next h => exact .greeted h hl
      · exact moves_disconnect hl _ _ _

theorem moves_hangUp (s : System) : Moves prim own s s.hangUp := by
  obtain ⟨⟨l, phase⟩, stream, wire⟩ := s
  cases phase with
  | down => exact .left (.refl l) rfl (Or.inl rfl)
  | stopped => exact .left (.refl l) rfl (Or.inr rfl)
  | _ => exact .idle (.refl l) rfl

theorem moves_receive (s : System) : Moves prim own s (s.receive prim own).hangUp := by
  have hidle : Moves prim own s s.hangUp := moves_hangUp s
  obtain ⟨⟨l, phase⟩, stream, wire⟩ := s
  cases phase with
  | manifest ok stash =>
    cases wire with
    | nil => exact hidle
    | cons message wire => exact moves_receiveManifest ok stash l message stream wire
  | live job =>
    cases wire with
    | nil => exact hidle
    | cons message wire =>
      cases message with
      | scopeChanged => exact .opened
      | changed group => exact .pushed
      | _ => exact moves_disconnect (Or.inl rfl) _ _ _
  | _ => cases wire <;> exact hidle

/-- 要求のほかの act は、`Moves` のどれかである。 -/
theorem moves_step (s : System) (hst : ∀ st, s.stream = some st → Hosting own st) {a : Act}
    (ha : ∀ amb remote req, a ≠ .request amb remote req) :
    Moves prim own s (s.step prim inner own a) := by
  have hup : Moves prim own s s.hangUp := moves_hangUp s
  obtain ⟨⟨l, phase⟩, stream, wire⟩ := s
  have hidle : Moves prim own ⟨⟨l, phase⟩, stream, wire⟩ ⟨⟨l, phase⟩, stream, wire⟩ :=
    .idle (.refl l) rfl
  cases a with
  | request amb remote req => exact absurd rfl (ha amb remote req)
  | serve trigger =>
    unfold step
    dsimp only
    cases stream with
    | none => exact hidle
    | some st =>
      dsimp only [Option.bind_some]
      split
      · next st' sent db h => exact .served (served_of_step (hst st rfl) h)
      · exact hidle
  | connect =>
    cases phase with
    | down => exact .opened
    | _ => exact hidle
  | receive => exact moves_receive _
  | advance =>
    cases phase with
    | working job rest =>
      cases rest with
      | ret a => exact .finished
      | fail => exact moves_disconnect (Or.inl rfl) _ _ _
      | act update next => exact .acted
    | _ => exact hup
  | lose =>
    cases phase with
    | stopped => exact hidle
    | _ => exact moves_disconnect (Or.inl rfl) _ _ _
  | shutdown =>
    cases phase with
    | working => exact hidle
    | _ => exact .left (.refl l) rfl (Or.inr rfl)
  | tick now => exact .idle ⟨.refl _, .refl _⟩ rfl
  | read log => exact .idle ⟨.refl _, ⟨log, rfl⟩⟩ rfl

/-! ## manifest の途中 -/

/-- manifest を送り終えた task。 -/
def Following (cached : List String) (task : Task) : Prop :=
  task = .live cached ∨ ∃ lagged batch, task = .batching cached lagged batch

/-- manifest を読んでいる間の、貯めた stash と `wire` と stream の task。
`snaps` は、送られた分をすべて読んだときの stash である。 -/
inductive Underway (stash snaps : List GroupSyncState) : List SyncMessage → Task → Prop
  | opening {task : Task} (ht : task = .opened ∨ task = .subscribed) (hs : stash = [])
      (hn : snaps = []) : Underway stash snaps [] task
  | denied (hn : snaps = []) : Underway stash snaps [.syncDenied] .ended
  | listing {wire : List SyncMessage} {cached : List String} {todo : List (Nat × String)}
      (hm : wire.foldlM Sync.merge stash = some snaps)
      (hn : snaps.map (·.name) ++ todo.map Prod.snd = cached) (hnd : cached.Nodup) :
      Underway stash snaps wire (.manifest cached todo)
  | listed {msgs rest : List SyncMessage} {task : Task} {cached : List String}
      (hm : msgs.foldlM Sync.merge stash = some snaps) (hnd : (snaps.map (·.name)).Nodup)
      (ht : Following cached task) : Underway stash snaps (msgs ++ .manifestDone :: rest) task

namespace Underway

variable {stash snaps : List GroupSyncState} {wire : List SyncMessage}

theorem hello : Underway [] [] [] (SyncServer.accept own .hello).task :=
  .opening (Or.inl rfl) rfl rfl

/-- stream の一歩で増えるのは、読んだ snapshot だけである。 -/
theorem served (h : Underway stash snaps wire st.task) (hs : Served own db st st' sent db') :
    ∃ snaps', Underway stash snaps' (wire ++ sent) st'.task ∧
      (snaps' = snaps ∨ ∃ cached gid name todo, st.task = .manifest cached ((gid, name) :: todo) ∧
        snaps' = snaps ++ [snapshotGroup db gid name own]) := by
  cases hs with
  | subscribed =>
    cases h with
    | opening _ hs hn => exact ⟨snaps, .opening (Or.inr rfl) hs hn, Or.inl rfl⟩
    | listed _ _ ht => rcases ht with ht | ⟨_, _, ht⟩ <;> cases ht
  | denied _ =>
    cases h with
    | opening _ _ hn => exact ⟨snaps, .denied hn, Or.inl rfl⟩
    | listed _ _ ht => rcases ht with ht | ⟨_, _, ht⟩ <;> cases ht
  | @admitted _ scope _ hscope =>
    cases h with
    | opening _ hs hn =>
      subst hs hn
      refine ⟨[], .listing rfl rfl ?_, Or.inl rfl⟩
      have hnd := (currentScopeNames_sorted db own).2
      unfold currentScopeNames at hnd
      rw [hscope] at hnd
      exact hnd
    | listed _ _ ht => rcases ht with ht | ⟨_, _, ht⟩ <;> cases ht
  | @snapshot _ cached gid name todo =>
    cases h with
    | opening ht _ _ => rcases ht with ht | ht <;> cases ht
    | listing hm hn hnd =>
      refine ⟨_, .listing ?_ ?_ hnd, Or.inr ⟨cached, gid, name, todo, rfl, rfl⟩⟩
      · rw [List.foldlM_append, hm]
        refine Sync.merge_groupMessages snaps _ fun t ht hname => ?_
        -- 範囲の名前は重ならないので、まだ貯めていない group である
        rw [← hn, List.map_cons] at hnd
        exact (List.nodup_append.mp hnd).2.2 t.name (List.mem_map_of_mem ht) name
          List.mem_cons_self hname
      · rw [← hn, List.map_append, List.map_cons, List.append_assoc]
        rfl
    | listed _ _ ht => rcases ht with ht | ⟨_, _, ht⟩ <;> cases ht
  | listed =>
    cases h with
    | opening ht _ _ => rcases ht with ht | ht <;> cases ht
    | listing hm hn hnd =>
      rw [List.map_nil, List.append_nil] at hn
      exact ⟨snaps, .listed hm (hn ▸ hnd) (Or.inl rfl), Or.inl rfl⟩
    | listed _ _ ht => rcases ht with ht | ⟨_, _, ht⟩ <;> cases ht
  | gathered ht _ =>
    rw [List.append_nil]
    rcases ht with ⟨rfl, -⟩ | rfl
    · cases h with
      | opening ht _ _ => rcases ht with ht | ht <;> cases ht
      | listed hm hnd _ => exact ⟨snaps, .listed hm hnd (Or.inr ⟨_, _, rfl⟩), Or.inl rfl⟩
    · cases h with
      | opening ht _ _ => rcases ht with ht | ht <;> cases ht
      | listed hm hnd _ => exact ⟨snaps, .listed hm hnd (Or.inr ⟨_, _, rfl⟩), Or.inl rfl⟩
  | closed =>
    cases h with
    | opening ht _ _ => rcases ht with ht | ht <;> cases ht
    | listed hm hnd _ =>
      rw [List.append_assoc, List.cons_append]
      exact ⟨snaps, .listed hm hnd (Or.inl rfl), Or.inl rfl⟩

theorem greeted {task : Task} {message : SyncMessage} {stash' : List GroupSyncState}
    (h : Underway stash snaps (message :: wire) task) (hm : Sync.merge stash message = some stash') :
    Underway stash' snaps wire task := by
  generalize hw : message :: wire = w at h
  cases h with
  | opening _ _ _ => cases hw
  | denied _ =>
    cases hw
    cases hm
  | listing hfold hn hnd =>
    subst hw
    rw [List.foldlM_cons, hm] at hfold
    exact .listing hfold hn hnd
  | @listed msgs rest _ _ hfold hnd ht =>
    cases msgs with
    | nil =>
      cases hw
      cases hm
    | cons m msgs =>
      cases hw
      rw [List.foldlM_cons, hm] at hfold
      exact .listed hfold hnd ht

/-- `ManifestDone` を読むとき、stash は送られた snapshot のすべてである。 -/
theorem complete {task : Task} (h : Underway stash snaps (.manifestDone :: wire) task) :
    snaps = stash ∧ (stash.map (·.name)).Nodup := by
  generalize hw : SyncMessage.manifestDone :: wire = w at h
  cases h with
  | opening _ _ _ => cases hw
  | denied _ => cases hw
  | listing hfold hn hnd =>
    subst hw
    cases hfold
  | @listed msgs rest _ _ hfold hnd ht =>
    cases msgs with
    | nil =>
      cases hfold
      exact ⟨rfl, hnd⟩
    | cons m msgs =>
      cases hw
      cases hfold

end Underway

/-! ## 実行 -/

/-- 実行 `acts` で `(g, n)` に書かれた行。 -/
def wroteIn (prim : Primitives) (inner : Inner) (own : String) (s₀ : System) (acts : List Act) :
    Writing := fun g n row value =>
  ∃ i amb remote e, acts[i]? = some (.request amb remote (.put g n value e)) ∧
    (Bunker.handle prim inner amb (s₀.exec prim inner own (acts.take i)).upstream remote
      (.put g n value e)).response = .version (e.toNat + 1) ∧
    (slotOf (s₀.exec prim inner own (acts.take (i + 1))).upstream g n).2 = some row ∧
    row.nonce = amb.nonce.bytes

theorem exec_take_succ {s₀ : System} {acts : List Act} {t : Nat} {a : Act}
    (h : acts[t]? = some a) :
    s₀.exec prim inner own (acts.take (t + 1)) =
      (s₀.exec prim inner own (acts.take t)).step prim inner own a := by
  rw [List.take_add_one, h]
  unfold exec
  rw [List.foldl_append]
  rfl

end System

end Replica

end SecretBunker
