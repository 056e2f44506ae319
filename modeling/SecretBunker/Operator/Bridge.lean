import Mathlib.Data.List.Induction
import SecretBunker.Lib.Broadcast
import SecretBunker.Operator.Crd
import SecretBunker.Replica.Engine

/-!
# event から reconcile へ

`operator/src/events.rs` の `drive_bridge` と、`bunker.rs` の `Staleness`。replica の流す event を
broadcast で受け取り、group を読む CR の reconcile を促し、途絶の時計を合わせる。

event は起こすためだけのもので、取りこぼしても遅れるだけである、という建て前は reconcile については
正しいが、時計は event だけで動く。取りこぼした列に最後の `Connected` か `Disconnected` があれば、
時計は次にどちらかが届くまで誤ったままになる。

channel が閉じれば task は何もせずに終わるので、閉じた後のことは扱わない。
-/

namespace SecretBunker

open Broadcast

/-- event の言う接続の有無。 -/
def ReplicaEvent.connection : ReplicaEvent → Option Bool
  | .connected => some true
  | .disconnected => some false
  | _ => none

/-- replica の `EVENTS_CAPACITY`。 -/
def replicaEventsCapacity : Nat := 1024

namespace Operator

/-! ## 途絶の時計 -/

/-- `Staleness`。途絶えた時刻を覚える。 -/
structure Staleness where
  disconnectedSince : Option Nat
  deriving DecidableEq

namespace Staleness

/-- 起動したときは途絶えている。 -/
def new (now : Nat) : Staleness := ⟨some now⟩

def setConnected (s : Staleness) (now : Nat) (connected : Bool) : Staleness :=
  if connected then ⟨none⟩
  else if s.disconnectedSince.isNone then ⟨some now⟩
  else s

def disconnectedFor (s : Staleness) (now : Nat) : Option Nat := s.disconnectedSince.map (now - ·)

/-- 時計は接続していると見ている。 -/
def connected (s : Staleness) : Bool := s.disconnectedSince.isNone

@[simp] theorem connected_setConnected (s : Staleness) (now : Nat) (up : Bool) :
    (s.setConnected now up).connected = up := by
  unfold setConnected connected
  cases up with
  | true => rfl
  | false => cases h : s.disconnectedSince <;> simp [h]

theorem disconnectedFor_eq_none {s : Staleness} {now : Nat} :
    s.disconnectedFor now = none ↔ s.connected = true := by
  unfold disconnectedFor connected
  cases s.disconnectedSince <;> simp

end Staleness

/-! ## bridge -/

/-- reconcile を促す CR。 -/
structure ObjectRef where
  nameSpace : String
  name : String
  deriving DecidableEq

def objRef (cr : BunkerSecret) : ObjectRef := ⟨cr.nameSpace, cr.name⟩

/-- `drive_bridge` の状態。`triggered` は促した CR の並びである。 -/
structure Bridge where
  events : Receiver ReplicaEvent
  staleness : Staleness
  wasStale : Bool
  triggered : List ObjectRef
  deriving DecidableEq

namespace Bridge

/-- event の流れ、または loop の一回り。`now` は時計、`crs` はその時の CR の並びである。 -/
inductive Act where
  /-- replica が event を流す。 -/
  | emit (event : ReplicaEvent)
  | recv (now : Nat) (crs : List BunkerSecret)
  | tick (now : Nat) (crs : List BunkerSecret)

def Act.emitted : Act → Option ReplicaEvent
  | .emit event => some event
  | _ => none

def new (now : Nat) : Bridge := ⟨.fresh, .new now, false, []⟩

def trigger (b : Bridge) (crs : List BunkerSecret) : Bridge :=
  { b with triggered := b.triggered ++ crs.map objRef }

/-- 受け取ったものへの応じ方。`none` は取りこぼしの知らせで、すべての CR を促す。 -/
def receive (b : Bridge) (now : Nat) (crs : List BunkerSecret) : Option ReplicaEvent → Bridge
  | none => b.trigger crs
  | some .connected => { b with staleness := b.staleness.setConnected now true }
  | some .disconnected => { b with staleness := b.staleness.setConnected now false }
  | some event =>
    match event.group with
    | some g => b.trigger (crs.filter fun cr => g ∈ cr.referencedGroups)
    | none => b

variable (threshold : Nat)

/-- 途絶の長さが境を越えたか戻ったときに、すべての CR を促す。 -/
def onTick (b : Bridge) (now : Nat) (crs : List BunkerSecret) : Bridge :=
  let stale := (b.staleness.disconnectedFor now).any fun d => threshold ≤ d
  if stale = b.wasStale then b else { b with wasStale := stale }.trigger crs

def step (b : Bridge) : Act → Bridge
  | .emit event => { b with events := b.events.send replicaEventsCapacity event }
  | .recv now crs =>
    match b.events.recv with
    | some (got, events) => { b with events }.receive now crs got
    | none => b
  | .tick now crs => b.onTick threshold now crs

def exec (b : Bridge) (acts : List Act) : Bridge := acts.foldl (step threshold) b

variable {threshold}

theorem receive_events (b : Bridge) (now : Nat) (crs : List BunkerSecret)
    (got : Option ReplicaEvent) : (b.receive now crs got).events = b.events := by
  cases got with
  | none => rfl
  | some event => cases event <;> rfl

/-- 時計を動かすのは接続の event だけである。 -/
theorem receive_connected (b : Bridge) (now : Nat) (crs : List BunkerSecret)
    (got : Option ReplicaEvent) : (b.receive now crs got).staleness.connected =
      (got.bind (·.connection)).getD b.staleness.connected := by
  cases got with
  | none => rfl
  | some event => cases event <;> simp [receive, trigger, ReplicaEvent.connection, ReplicaEvent.group]

theorem step_recv {b : Bridge} {got : Option ReplicaEvent} {events : Receiver ReplicaEvent}
    (h : b.events.recv = some (got, events)) (now : Nat) (crs : List BunkerSecret) :
    b.step threshold (.recv now crs) = { b with events }.receive now crs got := by
  unfold step
  dsimp only
  rw [h]

theorem onTick_events (b : Bridge) (now : Nat) (crs : List BunkerSecret) :
    (b.onTick threshold now crs).events = b.events ∧
      (b.onTick threshold now crs).staleness = b.staleness := by
  unfold onTick
  dsimp only
  split <;> exact ⟨rfl, rfl⟩

/-! ## 時計の行く先 -/

/-- 列の最後の接続の event。 -/
def lastConnection (events : List ReplicaEvent) : Option Bool :=
  (events.filterMap (·.connection)).getLast?

theorem lastConnection_append (xs ys : List ReplicaEvent) :
    lastConnection (xs ++ ys) = (lastConnection ys).or (lastConnection xs) := by
  unfold lastConnection
  rw [List.filterMap_append, List.getLast?_append]

theorem lastConnection_singleton (x : ReplicaEvent) : lastConnection [x] = x.connection := by
  unfold lastConnection
  cases h : x.connection <;> simp [h]

theorem lastConnection_cons (x : ReplicaEvent) (xs : List ReplicaEvent) :
    lastConnection (x :: xs) = (lastConnection xs).or x.connection := by
  rw [← List.singleton_append, lastConnection_append, lastConnection_singleton]

/-- 残りの event をすべて受け取ったときに、時計が指すもの。 -/
def foretold (b : Bridge) : Bool :=
  (lastConnection b.events.queue).getD b.staleness.connected

/-- 受け取っても、行く先は変わらない。 -/
theorem foretold_recv (b : Bridge) (now : Nat) (crs : List BunkerSecret) :
    (b.step threshold (.recv now crs)).foretold = b.foretold := by
  unfold step
  dsimp only
  split
  · next got events h =>
    unfold foretold
    rw [receive_connected, receive_events]
    unfold Receiver.recv at h
    split at h
    · cases h
      rfl
    · cases hq : b.events.queue with
      | nil =>
        rw [hq] at h
        cases h
      | cons x rest =>
        rw [hq] at h
        cases h
        rw [lastConnection_cons, Option.bind_some]
        cases lastConnection rest <;> rfl
  · rfl

theorem foretold_tick (b : Bridge) (now : Nat) (crs : List BunkerSecret) :
    (b.step threshold (.tick now crs)).foretold = b.foretold := by
  obtain ⟨hevents, hstale⟩ := @onTick_events threshold b now crs
  unfold foretold step
  rw [hevents, hstale]

theorem foretold_of_drained {b : Bridge} (h : b.events.Drained) :
    b.foretold = b.staleness.connected := by
  unfold foretold
  rw [h.1]
  rfl

/-- 溢れて落ちる event が、最後の接続の event ではない。あるいは、時計がもうそのとおりである。 -/
def Spared (b : Bridge) (event : ReplicaEvent) : Prop :=
  b.events.queue.length < replicaEventsCapacity ∨
    lastConnection (b.events.queue.tail ++ [event]) ≠ none ∨
    ∀ oldest ∈ b.events.queue.head?, ∀ up, oldest.connection = some up → b.staleness.connected = up

/-- 行く先が流した event のとおりに動くのは、最後の接続の event が落ちないときに限る。 -/
theorem foretold_emit (b : Bridge) (event : ReplicaEvent) :
    (b.step threshold (.emit event)).foretold = event.connection.getD b.foretold ↔
      b.Spared event := by
  unfold step foretold Spared Receiver.send
  dsimp only
  by_cases hfull : b.events.queue.length < replicaEventsCapacity
  · rw [if_pos hfull, lastConnection_append, lastConnection_singleton]
    refine iff_of_true ?_ (Or.inl hfull)
    cases event.connection <;> rfl
  · rw [if_neg hfull]
    dsimp only
    cases hq : b.events.queue with
    | nil =>
      rw [hq] at hfull
      exact absurd (by decide) hfull
    | cons x rest =>
      rw [List.tail_cons, lastConnection_append, lastConnection_singleton, lastConnection_cons,
        List.head?_cons]
      cases hevent : event.connection with
      | some up => simp
      | none =>
        cases hrest : lastConnection rest with
        | some up => simp
        | none =>
          cases hx : x.connection with
          | none => simp [hx, ← hq, hfull]
          | some up => cases up <;> simp [hx, ← hq, hfull]

/-! ## 実行 -/

/-- 実行で流した event。 -/
def emittedIn (acts : List Act) : List ReplicaEvent := acts.filterMap Act.emitted

/-- 時計の行く先は、流した event のとおりである。起動したときは途絶えている。 -/
def Faithful (b : Bridge) (emitted : List ReplicaEvent) : Prop :=
  b.foretold = (lastConnection emitted).getD false

theorem Faithful.emit {b : Bridge} {emitted : List ReplicaEvent} (h : b.Faithful emitted)
    (event : ReplicaEvent) :
    (b.step threshold (.emit event)).Faithful (emitted ++ [event]) ↔ b.Spared event := by
  rw [← @foretold_emit threshold]
  unfold Faithful at h ⊢
  rw [lastConnection_append, lastConnection_singleton, h]
  cases event.connection <;> rfl

/-- 流さない一歩では、行く先は変わらない。 -/
theorem foretold_quiet (b : Bridge) {a : Act} (ha : a.emitted = none) :
    (b.step threshold a).foretold = b.foretold := by
  cases a with
  | emit event => cases ha
  | recv now crs => exact foretold_recv b now crs
  | tick now crs => exact foretold_tick b now crs

theorem exec_append (b : Bridge) (xs ys : List Act) :
    b.exec threshold (xs ++ ys) = (b.exec threshold xs).exec threshold ys := List.foldl_append

theorem foretold_exec (b : Bridge) {rest : List Act} (hr : ∀ a ∈ rest, a.emitted = none) :
    (b.exec threshold rest).foretold = b.foretold := by
  induction rest generalizing b with
  | nil => rfl
  | cons a rest ih =>
    exact (ih _ fun x hx => hr x (List.mem_cons_of_mem _ hx)).trans
      (foretold_quiet b (hr a List.mem_cons_self))

/-- 溢れて落ちる event が選ばれている限り、行く先は流した event のとおりである。 -/
theorem faithful_exec {start : Nat} {acts : List Act}
    (h : ∀ i event, acts[i]? = some (.emit event) →
      ((new start).exec threshold (acts.take i)).Spared event) :
    ((new start).exec threshold acts).Faithful (emittedIn acts) := by
  induction acts using List.reverseRecOn with
  | nil => rfl
  | append_singleton acts a ih =>
    have hprior : ((new start).exec threshold acts).Faithful (emittedIn acts) := by
      refine ih fun i event hi => ?_
      have hlt : i < acts.length := (List.getElem?_eq_some_iff.mp hi).1
      have hspared := h i event ((List.getElem?_append_left hlt).trans hi)
      rwa [List.take_append_of_le_length (Nat.le_of_lt hlt)] at hspared
    rw [exec_append]
    show (((new start).exec threshold acts).step threshold a).Faithful _
    cases ha : a.emitted with
    | none =>
      have hsame : emittedIn (acts ++ [a]) = emittedIn acts := by simp [emittedIn, ha]
      rw [hsame]
      exact (foretold_quiet _ ha).trans hprior
    | some event =>
      have hemit : a = .emit event := by
        cases a with
        | emit e => exact congrArg Act.emit (Option.some.inj ha)
        | _ => cases ha
      have hgrow : emittedIn (acts ++ [a]) = emittedIn acts ++ [event] := by simp [emittedIn, ha]
      subst hemit
      rw [hgrow, hprior.emit]
      have hspared := h acts.length event List.getElem?_concat_length
      rwa [List.take_left] at hspared

/-- 受け取り続ければ、いつか捌ける。 -/
theorem exists_drained (b : Bridge) : ∃ rest : List Act, (∀ a ∈ rest, a.emitted = none) ∧
    (b.exec threshold rest).events.Drained := by
  -- 残りの数についての帰納法。取りこぼしの知らせも一つと数える
  generalize hn : b.events.queue.length + b.events.lagged.toNat = n
  induction n generalizing b with
  | zero =>
    obtain ⟨hq, hl⟩ := Nat.add_eq_zero_iff.mp hn
    exact ⟨[], fun a ha => absurd ha List.not_mem_nil, List.length_eq_zero_iff.mp hq,
      Bool.toNat_eq_zero.mp hl⟩
  | succ n ih =>
    have hnext : ∃ got events, b.events.recv = some (got, events) ∧
        events.queue.length + events.lagged.toNat = n := by
      unfold Receiver.recv
      cases hl : b.events.lagged with
      | true =>
        rw [hl] at hn
        exact ⟨none, _, rfl, Nat.succ.inj hn⟩
      | false =>
        rw [hl] at hn
        obtain ⟨x, queue, hq⟩ := List.exists_cons_of_length_eq_add_one hn
        rw [hq] at hn ⊢
        exact ⟨some x, _, rfl, Nat.succ.inj hn⟩
    obtain ⟨got, events, hrecv, hcount⟩ := hnext
    obtain ⟨rest, hrest, hd⟩ := ih (b.step threshold (.recv 0 []))
      (by rw [step_recv hrecv, receive_events]; exact hcount)
    exact ⟨.recv 0 [] :: rest, by simpa [Act.emitted] using hrest, hd⟩

theorem emittedIn_quiet {acts rest : List Act} (hr : ∀ a ∈ rest, a.emitted = none) :
    emittedIn (acts ++ rest) = emittedIn acts := by
  unfold emittedIn
  rw [List.filterMap_append, List.filterMap_eq_nil_iff.mpr hr, List.append_nil]

/-- 捌けた時計の正しさは、行く先の正しさである。 -/
theorem faithful_iff_clock {b : Bridge} {emitted : List ReplicaEvent} (hd : b.events.Drained) :
    b.Faithful emitted ↔
      ∀ now, b.staleness.disconnectedFor now = none ↔ lastConnection emitted = some true := by
  simp only [Faithful, foretold_of_drained hd, Staleness.disconnectedFor_eq_none, forall_const]
  cases lastConnection emitted with
  | none => simp
  | some up => cases up <;> simp

/-- **捌けた時計が正しいのは、最後の接続の event が溢れて落ちないときであり、そのときに限る。**
左は、流した event がどれも `Spared` であること。右は、実行のどの時点でも、そこから bridge が
追い付いた時計は、それまでに流れた最後の接続の event が `Connected` のときに限って接続を指すこと。 -/
theorem staleness_follows_iff (threshold start : Nat) (acts : List Act) :
    (∀ i event, acts[i]? = some (.emit event) →
      ((new start).exec threshold (acts.take i)).Spared event) ↔
    ∀ i rest, (∀ a ∈ rest, a.emitted = none) →
      ((new start).exec threshold (acts.take i ++ rest)).events.Drained →
      ∀ now, ((new start).exec threshold (acts.take i ++ rest)).staleness.disconnectedFor now = none ↔
        lastConnection (emittedIn (acts.take i ++ rest)) = some true := by
  have hemitted : ∀ i rest, (∀ a ∈ rest, a.emitted = none) →
      emittedIn (acts.take i ++ rest) = emittedIn (acts.take i) := fun _ _ => emittedIn_quiet
  constructor
  · intro h i rest hr hd
    have hprior : ((new start).exec threshold (acts.take i)).Faithful (emittedIn (acts.take i)) := by
      refine faithful_exec fun j event hj => ?_
      rw [List.getElem?_take] at hj
      split at hj
      · next hlt =>
        rw [List.take_take, min_eq_left (Nat.le_of_lt hlt)]
        exact h j event hj
      · cases hj
    rw [hemitted i rest hr, ← faithful_iff_clock hd, exec_append]
    exact (foretold_exec _ hr).trans hprior
  · intro h i event hi
    -- どの時点の行く先も、追い付いてみれば正しい
    have hall : ∀ k, ((new start).exec threshold (acts.take k)).Faithful
        (emittedIn (acts.take k)) := by
      intro k
      obtain ⟨rest, hr, hd⟩ := @exists_drained threshold ((new start).exec threshold (acts.take k))
      rw [← exec_append] at hd
      have hclock := (faithful_iff_clock hd).mpr (h k rest hr hd)
      rw [hemitted k rest hr, exec_append] at hclock
      exact (foretold_exec _ hr).symm.trans hclock
    have hnext := hall (i + 1)
    rw [List.take_add_one, hi, exec_append] at hnext
    have hgrow : emittedIn (acts.take i ++ [.emit event]) = emittedIn (acts.take i) ++ [event] :=
      List.filterMap_append
    rw [Option.toList_some, hgrow] at hnext
    exact (@Faithful.emit threshold _ _ (hall i) event).mp hnext

/-- 一つだけの event は溢れない。 -/
theorem staleness_follows_iff_sample :
    ((new 0).exec 300 [.emit .connected, .recv 5 []]).staleness.disconnectedFor 9 = none := by
  have hspared : ∀ i event, [Act.emit .connected, .recv 5 []][i]? = some (.emit event) →
      ((new 0).exec 300 ([Act.emit .connected, .recv 5 []].take i)).Spared event := by
    intro i event hi
    cases i with
    | zero => exact Or.inl (by decide)
    | succ i => cases i <;> simp at hi
  refine ((staleness_follows_iff 300 0 [.emit .connected, .recv 5 []]).mp hspared 2 []
    (fun a ha => absurd ha List.not_mem_nil) ?_ 9).mpr rfl
  exact ⟨rfl, rfl⟩

theorem exec_emit (b : Bridge) (events : List ReplicaEvent) :
    b.exec threshold (events.map .emit) =
      { b with events := b.events.sendAll replicaEventsCapacity events } := by
  induction events generalizing b with
  | nil => rfl
  | cons event events ih => exact ih (b.step threshold (.emit event))

/-- `Connected` の後に溢れるだけの event が一度に流れると、時計は途絶えたままになる。 -/
theorem overflow_loses_connected {events : List ReplicaEvent}
    (hlen : events.length = replicaEventsCapacity) (hdata : lastConnection events = none) :
    ∃ acts : List Act, ((new 0).exec threshold acts).events.Drained ∧
      lastConnection (emittedIn acts) = some true ∧
      ∀ now, ((new 0).exec threshold acts).staleness.disconnectedFor now ≠ none := by
  have hemitted : ∀ xs : List ReplicaEvent, emittedIn (xs.map .emit) = xs := by
    intro xs
    unfold emittedIn
    rw [List.filterMap_map]
    exact List.filterMap_some
  have hdown : ((new 0).exec threshold ((.connected :: events).map .emit)).foretold = false := by
    rw [exec_emit]
    show (lastConnection (Receiver.sendAll _ .fresh (.connected :: events)).queue).getD _ = _
    rw [Receiver.sendAll_overflow _ hlen (by decide), hdata]
    rfl
  obtain ⟨rest, hr, hd⟩ :=
    @exists_drained threshold ((new 0).exec threshold ((.connected :: events).map .emit))
  rw [← exec_append] at hd
  refine ⟨_, hd, ?_, fun now hnone => ?_⟩
  · rw [emittedIn_quiet hr, hemitted, lastConnection_cons, hdata]
    rfl
  · rw [Staleness.disconnectedFor_eq_none, ← foretold_of_drained hd, exec_append,
      foretold_exec _ hr, hdown] at hnone
    cases hnone

theorem lastConnection_replicate (n : Nat) (g name : String) (version : Nat) :
    lastConnection (List.replicate n (.secretChanged g name version)) = none := by
  unfold lastConnection
  rw [List.filterMap_replicate_of_none rfl]
  rfl

/-- 繋がった replica の最初の同期で 1024 件の secret が変わると、bridge が追い付いても、
途絶の時計は進み続ける。 -/
theorem connected_lost_in_burst : ∃ acts : List Act,
    ((new 0).exec 300 acts).events.Drained ∧ lastConnection (emittedIn acts) = some true ∧
      ∀ now, ((new 0).exec 300 acts).staleness.disconnectedFor now ≠ none :=
  overflow_loses_connected List.length_replicate
    (lastConnection_replicate replicaEventsCapacity "g" "n" 1)

end Bridge

end Operator

end SecretBunker
