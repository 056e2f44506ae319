import SecretBunker.Serve.Health

/-!
# 自分で立て直す serve の loop

`src/serveloop.rs` の `serve_with_rebind` と、`src/main.rs` が渡す `build`。loop は世代を一つ作り、
停止の合図か、その世代の見張りの知らせを待ち、router を閉じ、teardown を待ってから次へ進む。

見張りは世代ごとに立ち、loop とは別の task として好きな順に進む。世代を閉じた後もしばらくは残り、
閉じた endpoint に気付いて終わる。record の照会は返事を待つ間に endpoint が閉じることがあるので、
始めと終わりを別の歩みにする。

* `generations_exclusive` — 開いている endpoint は高々一つで、次を作る前には必ず閉じ終えている
* `rebinds_follow_evidence` — 作り直しの理由はその世代自身の標本にあり、知らせは失われない

`select!` は用意のできた枝のどれを選んでもよいので、停止と作り直しの両方が選べるときはどちらも起こりうる。
停止の合図は、待っている間だけ見る。
-/

namespace SecretBunker

namespace Serve

/-- `RELAY_DOWN_REBIND_AFTER`。ナノ秒で数える。 -/
def relayDownRebindAfter : Nat := 10 * 60 * 1000000000

/-- `MISMATCH_REBIND_THRESHOLD` -/
def mismatchRebindThreshold : Nat := 3

/-- 見張りの知らせの channel の長さ。 -/
def wedgeCapacity : Nat := 2

/-! ## 世代 -/

/--
一つの世代：endpoint と router、見張り、後始末。

`samples` と `observations` は見張りがこれまでに受け取ったもの、`leftFor` は loop がこの世代を
作り直した理由で、どちらも code には無い記録である。
-/
structure Generation where
  number : Nat
  endpointOpen : Bool
  /-- まだ待っていない teardown がある。 -/
  teardown : Bool
  /-- 途絶の見張りの task。終わっていれば `none`。 -/
  downWatch : Option RelayDownTracker
  /-- record の見張りの task。 -/
  selfCheck : Option MismatchStreak
  /-- 照会の返事を待っている。 -/
  lookingUp : Bool
  inbox : List WedgeReason
  /-- channel の受け手が生きている。 -/
  listening : Bool
  samples : List Sample
  observations : List Observation
  leftFor : Option WedgeReason

namespace Generation

/-- `build` の成功。relay を使わないなら見張りを立てず、channel も作らない。 -/
def build (number : Nat) (relays teardown : Bool) : Generation where
  number := number
  endpointOpen := true
  teardown := teardown
  downWatch := if relays then some (.new relayDownRebindAfter) else none
  selfCheck := if relays then some (.new mismatchRebindThreshold) else none
  lookingUp := false
  inbox := []
  listening := true
  samples := []
  observations := []
  leftFor := none

/-- `try_send`。受け手がいないか満杯なら捨てる。 -/
def escalate (g : Generation) (reason : WedgeReason) : Generation :=
  { g with inbox :=
      if g.listening && g.inbox.length < wedgeCapacity then g.inbox ++ [reason] else g.inbox }

/-- 途絶の見張りの一巡。知らせたら終わる。 -/
def sampleRelays (g : Generation) (statuses : List RelayStatus) (now : Nat) : Generation :=
  match g.downWatch with
  | none => g
  | some tracker =>
    if !g.endpointOpen then { g with downWatch := none }
    else
      let anyConnected := statuses.any (·.2)
      let observed := tracker.observe anyConnected now
      let g := { g with samples := g.samples ++ [(anyConnected, now)] }
      if observed.1 then { g.escalate .relayDown with downWatch := none }
      else { g with downWatch := some observed.2 }

/-- record の照会を始める。endpoint が閉じていれば見張りは終わる。 -/
def startLookup (g : Generation) : Generation :=
  match g.selfCheck with
  | none => g
  | some _ => if g.endpointOpen then { g with lookingUp := true } else { g with selfCheck := none }

/-- 照会の返事を照合する。合わない照合が続いたら知らせて終わる。 -/
def finishLookup (g : Generation) (lookup : Option (List String)) (live : List RelayStatus) :
    Generation :=
  match g.selfCheck with
  | none => g
  | some streak =>
    if !g.lookingUp then g
    else
      let obs := verdict lookup live
      let observed := streak.observe obs
      let g := { g with lookingUp := false, observations := g.observations ++ [obs] }
      if obs = .mismatch ∧ observed.1 = true then
        { g.escalate .recordMismatch with selfCheck := none }
      else { g with selfCheck := some observed.2 }

/-- `select!` を抜けると受け手は捨てられ、知らせはもう届かない。 -/
def leave (g : Generation) (reason : Option WedgeReason) : Generation :=
  { g with listening := false, inbox := [], leftFor := reason }

/-- `router.shutdown()`。router の endpoint も閉じる。 -/
def close (g : Generation) : Generation := { g with endpointOpen := false }

def tearDown (g : Generation) : Generation := { g with teardown := false }

/-- 作り直す理由の証拠。 -/
def Evidence (g : Generation) : WedgeReason → Prop
  | .relayDown => Outage relayDownRebindAfter g.samples
  | .recordMismatch => mismatchRebindThreshold ≤ mismatches g.observations

/-- 理由を調べる見張りが終わっている。 -/
def Ended (g : Generation) : WedgeReason → Prop
  | .relayDown => g.downWatch = none
  | .recordMismatch => g.selfCheck = none

/-- 理由一つについての、見張り、証拠、知らせの関係。 -/
structure Told (ended evidence sent exited : Prop) (listening : Bool) : Prop where
  quiet : ¬ ended → ¬ evidence
  told : sent → ended ∧ evidence
  left : exited → ended ∧ evidence
  /-- 聞かれている間、証拠は知らせになっている。 -/
  heard : listening = true → evidence → sent

/-- 世代の見張りは標本どおりに進み、知らせは証拠のとおりである。 -/
structure Watched (g : Generation) : Prop where
  tracker : ∀ t, g.downWatch = some t → t = (RelayDownTracker.new relayDownRebindAfter).after g.samples
  streak : ∀ s, g.selfCheck = some s →
    s = (MismatchStreak.new mismatchRebindThreshold).after g.observations
  told : ∀ r, Told (g.Ended r) (g.Evidence r) (r ∈ g.inbox) (g.leftFor = some r) g.listening
  nodup : g.inbox.Nodup

/-- 見張りの task が触れない部分。 -/
structure Frame where
  number : Nat
  endpointOpen : Bool
  teardown : Bool
  listening : Bool
  leftFor : Option WedgeReason

def frame (g : Generation) : Frame :=
  ⟨g.number, g.endpointOpen, g.teardown, g.listening, g.leftFor⟩

/-! ### 知らせ -/

section Told

variable {ended evidence sent exited : Prop} {listening : Bool}

/-- 証拠の無いまま見張りが終わる。 -/
theorem Told.closed {ended' : Prop} (h : Told ended evidence sent exited listening)
    (he : ended') : Told ended' evidence sent exited listening where
  quiet := fun hn => absurd he hn
  told := fun ht => ⟨he, (h.told ht).2⟩
  left := fun hl => ⟨he, (h.left hl).2⟩
  heard := h.heard

/-- 見張りが証拠を見つけ、知らせて終わる。 -/
theorem Told.found (he : ended) (hv : evidence) (ht : listening = true → sent) :
    Told ended evidence sent exited listening where
  quiet := fun hn => absurd he hn
  told := fun _ => ⟨he, hv⟩
  left := fun _ => ⟨he, hv⟩
  heard := fun hl _ => ht hl

/-- 見張りが続く。 -/
theorem Told.goesOn {ended' evidence' : Prop} (h : Told ended evidence sent exited listening)
    (hrun : ¬ ended) (hno : ¬ evidence') : Told ended' evidence' sent exited listening where
  quiet := fun _ => hno
  told := fun ht => absurd (h.told ht).1 hrun
  left := fun hl => absurd (h.left hl).1 hrun
  heard := fun _ he => absurd he hno

/-- ほかの理由の知らせが届く。 -/
theorem Told.other {sent' : Prop} (h : Told ended evidence sent exited listening)
    (hs : sent' ↔ sent) : Told ended evidence sent' exited listening where
  quiet := h.quiet
  told := fun ht => h.told (hs.mp ht)
  left := h.left
  heard := fun hl he => hs.mpr (h.heard hl he)

end Told

variable {g : Generation} {r : WedgeReason}

/-- 見張りがまだ終わっていない理由は知らされておらず、channel には空きがある。 -/
theorem Watched.room (h : g.Watched) (hr : ¬ g.Ended r) :
    r ∉ g.inbox ∧ g.inbox.length < wedgeCapacity := by
  have hnot : ∀ x ∈ g.inbox, x ≠ r := fun x hx he => hr (he ▸ ((h.told x).told hx).1)
  refine ⟨fun hmem => hnot r hmem rfl, ?_⟩
  have hnodup := h.nodup
  -- 理由は二つしかないので、`r` のほかの知らせは高々一つである
  generalize g.inbox = inbox at hnot hnodup
  rcases inbox with _ | ⟨a, _ | ⟨b, rest⟩⟩
  · decide
  · exact Nat.one_lt_two
  · have ha : a ≠ r := hnot a (by simp)
    have hb : b ≠ r := hnot b (by simp)
    have hab : a ≠ b := by
      rintro rfl
      simp at hnodup
    cases r <;> cases a <;> cases b <;> simp_all

/-- 終わっていない見張りの知らせは必ず届く。 -/
theorem Watched.inbox_escalate (h : g.Watched) (hr : ¬ g.Ended r) :
    (g.escalate r).inbox = if g.listening then g.inbox ++ [r] else g.inbox := by
  have hroom := (h.room hr).2
  cases hl : g.listening <;> simp [escalate, hl, hroom]

theorem Watched.nodup_escalate (h : g.Watched) (hr : ¬ g.Ended r) :
    (g.escalate r).inbox.Nodup := by
  have hnew := (h.room hr).1
  rw [h.inbox_escalate hr]
  split
  · simpa [List.nodup_append, h.nodup] using fun x hx (he : x = r) => hnew (he ▸ hx)
  · exact h.nodup

theorem Watched.mem_escalate (h : g.Watched) (hr : ¬ g.Ended r) (hl : g.listening = true) :
    r ∈ (g.escalate r).inbox := by
  simp [h.inbox_escalate hr, hl]

/-- ほかの理由の知らせは変わらない。 -/
theorem Watched.mem_escalate_other (h : g.Watched) (hr : ¬ g.Ended r) {x : WedgeReason}
    (hx : x ≠ r) : x ∈ (g.escalate r).inbox ↔ x ∈ g.inbox := by
  rw [h.inbox_escalate hr]
  split <;> simp [hx]

/-! ### 見張りの一巡 -/

theorem watched_build (number : Nat) (relays teardown : Bool) :
    (build number relays teardown).Watched where
  tracker := by cases relays <;> simp [build, RelayDownTracker.after]
  streak := by cases relays <;> simp [build, MismatchStreak.after]
  told := by
    intro r
    have hno : ¬ (build number relays teardown).Evidence r := by
      cases r <;> simp [Evidence, build, Outage, mismatchRebindThreshold]
    exact ⟨fun _ => hno, fun ht => absurd ht (List.not_mem_nil), fun hl => (by cases hl),
      fun _ he => absurd he hno⟩
  nodup := List.nodup_nil

/-- relay の標本を取る。 -/
theorem Watched.sampleRelays (h : g.Watched) (statuses : List RelayStatus) (now : Nat) :
    (g.sampleRelays statuses now).Watched := by
  unfold Generation.sampleRelays
  cases hd : g.downWatch with
  | none => exact h
  | some tracker =>
    have hrun : ¬ g.Ended .relayDown := by simp [Ended, hd]
    have htracker := h.tracker tracker hd
    dsimp only
    split
    · refine ⟨fun t ht => (by cases ht), h.streak, fun r => ?_, h.nodup⟩
      cases r with
      | relayDown => exact (h.told .relayDown).closed rfl
      | recordMismatch => exact h.told .recordMismatch
    · have hiff := RelayDownTracker.observe_after_iff relayDownRebindAfter g.samples
        (statuses.any (·.2), now)
      rw [← htracker] at hiff
      split
      · next hfired =>
        refine ⟨fun t ht => (by cases ht), h.streak, fun r => ?_, h.nodup_escalate hrun⟩
        cases r with
        | relayDown => exact .found rfl (hiff.mp hfired) (h.mem_escalate hrun)
        | recordMismatch =>
          exact (h.told .recordMismatch).other (h.mem_escalate_other hrun (by decide))
      · next hquiet =>
        refine ⟨fun t ht => ?_, h.streak, fun r => ?_, h.nodup⟩
        · cases ht
          rw [RelayDownTracker.after, List.foldl_concat, ← RelayDownTracker.after, ← htracker]
        · cases r with
          | relayDown => exact (h.told .relayDown).goesOn hrun fun he => hquiet (hiff.mpr he)
          | recordMismatch => exact h.told .recordMismatch

theorem Watched.startLookup (h : g.Watched) : g.startLookup.Watched := by
  have hlooking : { g with lookingUp := true }.Watched := ⟨h.tracker, h.streak, h.told, h.nodup⟩
  unfold Generation.startLookup
  cases hs : g.selfCheck with
  | none => exact h
  | some streak =>
    dsimp only
    split
    · exact hs ▸ hlooking
    · refine ⟨h.tracker, fun s hs => (by cases hs), fun r => ?_, h.nodup⟩
      cases r with
      | relayDown => exact h.told .relayDown
      | recordMismatch => exact (h.told .recordMismatch).closed rfl

/-- 照会の返事を受ける。 -/
theorem Watched.finishLookup (h : g.Watched) (lookup : Option (List String))
    (live : List RelayStatus) : (g.finishLookup lookup live).Watched := by
  unfold Generation.finishLookup
  cases hs : g.selfCheck with
  | none => exact h
  | some streak =>
    have hrun : ¬ g.Ended .recordMismatch := by simp [Ended, hs]
    have hstreak := h.streak streak hs
    dsimp only
    split
    · exact h
    · have hiff := MismatchStreak.observe_after_iff mismatchRebindThreshold g.observations
        (verdict lookup live)
      rw [← hstreak] at hiff
      split
      · next hfired =>
        refine ⟨h.tracker, fun s hs => (by cases hs), fun r => ?_, h.nodup_escalate hrun⟩
        cases r with
        | relayDown => exact (h.told .relayDown).other (h.mem_escalate_other hrun (by decide))
        | recordMismatch => exact .found rfl (hiff.mp hfired.2) (h.mem_escalate hrun)
      · next hquiet =>
        refine ⟨h.tracker, fun s hs => ?_, fun r => ?_, h.nodup⟩
        · cases hs
          rw [MismatchStreak.after, List.foldl_concat, ← MismatchStreak.after, ← hstreak]
        · cases r with
          | relayDown => exact h.told .relayDown
          | recordMismatch =>
            refine (h.told .recordMismatch).goesOn hrun fun he => hquiet ⟨?_, hiff.mpr he⟩
            -- 合った照合や失敗した照会では、溜まった数は増えない
            have hbefore := (h.told .recordMismatch).quiet hrun
            have hafter : mismatchRebindThreshold ≤ mismatches (g.observations ++ [verdict lookup live]) := he
            rw [mismatches_snoc] at hafter
            cases hv : verdict lookup live with
            | mismatch => rfl
            | matched => simp [hv, mismatchRebindThreshold] at hafter
            | inconclusive => exact absurd (by simpa [Evidence, hv] using hafter) hbefore

theorem Watched.leave (h : g.Watched) {reason : Option WedgeReason}
    (hr : ∀ r, reason = some r → r ∈ g.inbox) : (g.leave reason).Watched where
  tracker := h.tracker
  streak := h.streak
  told := fun r => {
    quiet := (h.told r).quiet
    told := fun hmem => absurd hmem List.not_mem_nil
    left := fun hl => (h.told r).told (hr r hl)
    heard := fun hl => absurd hl Bool.false_ne_true }
  nodup := List.nodup_nil

/-! ### 触れない部分 -/

theorem frame_sampleRelays (g : Generation) (statuses : List RelayStatus) (now : Nat) :
    (g.sampleRelays statuses now).frame = g.frame := by
  unfold Generation.sampleRelays
  split
  · rfl
  · split
    · rfl
    · dsimp only
      split <;> rfl

theorem frame_startLookup (g : Generation) : g.startLookup.frame = g.frame := by
  unfold Generation.startLookup
  split
  · rfl
  · split <;> rfl

theorem frame_finishLookup (g : Generation) (lookup : Option (List String))
    (live : List RelayStatus) : (g.finishLookup lookup live).frame = g.frame := by
  unfold Generation.finishLookup
  split
  · rfl
  · split
    · rfl
    · dsimp only
      split <;> rfl

end Generation

/-! ## loop -/

inductive Phase where
  /-- `build(generation)` を待っている。 -/
  | building
  /-- 作れなかったので、間を置いている。 -/
  | retrying
  | serving
  /-- router が閉じるのを待っている。 -/
  | closing (stopping : Bool)
  /-- teardown を待っている。 -/
  | tearing (stopping : Bool) (result : Except String Unit)
  | returned (result : Except String Unit)

/-- serve の process。世代は新しい順に並ぶ。 -/
structure Server where
  generation : Nat
  phase : Phase
  /-- 停止の合図が来ている。 -/
  shutdown : Bool
  gens : List Generation

inductive Act where
  | built (relays teardown : Bool)
  | buildFailed (err : String)
  | retry
  /-- 停止の合図が来る。 -/
  | interrupt
  /-- `select!` が停止の枝を選ぶ。 -/
  | stop
  /-- `select!` が見張りの知らせの枝を選ぶ。 -/
  | rebind
  | closed (result : Except String Unit)
  | toreDown
  | sampleRelays (number : Nat) (statuses : List RelayStatus) (now : Nat)
  | startLookup (number : Nat)
  | finishLookup (number : Nat) (lookup : Option (List String)) (live : List RelayStatus)

namespace Server

def start : Server := ⟨1, .building, false, []⟩

/-- 番号の世代の task が一歩進む。 -/
def onGeneration (s : Server) (number : Nat) (f : Generation → Generation) : Server :=
  { s with gens := s.gens.map fun g => if g.number = number then f g else g }

/-- loop の次の世代へ。 -/
def next (s : Server) : Server := { s with generation := s.generation + 1, phase := .building }

/-- 今の世代を離れて、router を閉じ始める。 -/
def leave (s : Server) (stopping : Bool) (reason : Option WedgeReason) : Server :=
  { s with phase := .closing stopping, gens := s.gens.modifyHead (·.leave reason) }

def step (s : Server) : Act → Server
  | .built relays teardown =>
    match s.phase with
    | .building => { s with
        phase := .serving
        gens := .build s.generation relays teardown :: s.gens }
    | _ => s
  | .buildFailed err =>
    match s.phase with
    | .building =>
      { s with phase := if s.generation = 1 then .returned (.error err) else .retrying }
    | _ => s
  | .retry =>
    match s.phase with
    | .retrying => s.next
    | _ => s
  | .interrupt => { s with shutdown := true }
  | .stop =>
    match s.phase with
    | .retrying => if s.shutdown then { s with phase := .returned (.ok ()) } else s
    | .serving => if s.shutdown then s.leave true none else s
    | _ => s
  | .rebind =>
    match s.phase, s.gens.head? with
    | .serving, some g =>
      match g.inbox with
      | reason :: _ => s.leave false (some reason)
      | [] => s
    | _, _ => s
  | .closed result =>
    match s.phase with
    | .closing stopping =>
      { s with phase := .tearing stopping result, gens := s.gens.modifyHead (·.close) }
    | _ => s
  | .toreDown =>
    match s.phase with
    | .tearing stopping result =>
      let s := { s with gens := s.gens.modifyHead (·.tearDown) }
      if stopping then
        match result with
        | .error err => { s with phase := .returned (.error ("router shutdown: " ++ err)) }
        | .ok () => { s with phase := .returned (.ok ()) }
      else s.next
    | _ => s
  | .sampleRelays number statuses now => s.onGeneration number fun g => g.sampleRelays statuses now
  | .startLookup number => s.onGeneration number (·.startLookup)
  | .finishLookup number lookup live => s.onGeneration number fun g => g.finishLookup lookup live

def exec (s : Server) (acts : List Act) : Server := acts.foldl step s

/-! ## loop の不変条件 -/

/-- 終えた世代：閉じ終えて後始末も済み、理由があって離れた。 -/
structure Past (generation : Nat) (f : Generation.Frame) : Prop where
  closed : f.endpointOpen = false
  torn : f.teardown = false
  deaf : f.listening = false
  numbered : 0 < f.number
  older : f.number < generation
  left : f.leftFor.isSome = true

/-- 今の世代は `P` を満たし、ほかは終えた世代である。 -/
def Current (generation : Nat) (frames : List Generation.Frame) (P : Generation.Frame → Prop) :
    Prop :=
  ∃ f rest, frames = f :: rest ∧ f.number = generation ∧ P f ∧ ∀ old ∈ rest, Past generation old

/-- loop の居場所ごとの、世代の様子。 -/
def Standing (generation : Nat) (shutdown : Bool) (frames : List Generation.Frame) : Phase → Prop
  | .building => ∀ f ∈ frames, Past generation f
  | .retrying => ∀ f ∈ frames, Past generation f
  | .serving => Current generation frames fun f => f.endpointOpen = true ∧ f.listening = true
  | .closing stopping => (stopping = true → shutdown = true) ∧ Current generation frames fun f =>
      f.listening = false ∧ (stopping = false → f.leftFor.isSome = true)
  | .tearing stopping _ => (stopping = true → shutdown = true) ∧ Current generation frames fun f =>
      f.endpointOpen = false ∧ f.listening = false ∧ (stopping = false → f.leftFor.isSome = true)
  | .returned result => (shutdown = true ∨ frames = [] ∧ ∃ err, result = .error err) ∧
      ∀ f ∈ frames, f.endpointOpen = false ∧ f.teardown = false ∧
        (f.number = generation ∨ Past generation f)

structure Orderly (s : Server) : Prop where
  numbered : 0 < s.generation
  standing : Standing s.generation s.shutdown (s.gens.map (·.frame)) s.phase
  sorted : (s.gens.map (·.number)).Pairwise (· > ·)
  watched : ∀ g ∈ s.gens, g.Watched

variable {s : Server}

theorem orderly_start : start.Orderly :=
  ⟨Nat.one_pos, by simp [start, Standing], .nil, by simp [start]⟩

theorem Past.next {generation : Nat} {f : Generation.Frame} (h : Past generation f) :
    Past (generation + 1) f :=
  ⟨h.closed, h.torn, h.deaf, h.numbered, Nat.lt_succ_of_lt h.older, h.left⟩

theorem Standing.interrupt {generation : Nat} {shutdown : Bool} {frames : List Generation.Frame}
    {phase : Phase} (h : Standing generation shutdown frames phase) :
    Standing generation true frames phase := by
  cases phase with
  | building => exact h
  | retrying => exact h
  | serving => exact h
  | closing stopping => exact ⟨fun _ => rfl, h.2⟩
  | tearing stopping result => exact ⟨fun _ => rfl, h.2⟩
  | returned result => exact ⟨Or.inl rfl, h.2⟩

/-- 見張りの task の一歩は、loop からは見えない。 -/
theorem Orderly.onGeneration (h : s.Orderly) (number : Nat) {f : Generation → Generation}
    (hframe : ∀ g, (f g).frame = g.frame) (hwatched : ∀ g : Generation, g.Watched → (f g).Watched) :
    (s.onGeneration number f).Orderly := by
  have hmap : ∀ {α : Type} (k : Generation.Frame → α),
      (s.onGeneration number f).gens.map (fun g => k g.frame) = s.gens.map fun g => k g.frame := by
    intro α k
    unfold Server.onGeneration
    rw [List.map_map]
    refine List.map_congr_left fun g _ => ?_
    dsimp only [Function.comp]
    split
    · rw [hframe]
    · rfl
  refine ⟨h.numbered, ?_, ?_, fun g hg => ?_⟩
  · have := hmap id
    simp only [id] at this
    rw [this]
    exact h.standing
  · have := hmap Generation.Frame.number
    exact this ▸ h.sorted
  · obtain ⟨g₀, hg₀, rfl⟩ := List.mem_map.mp hg
    split
    · exact hwatched g₀ (h.watched g₀ hg₀)
    · exact h.watched g₀ hg₀

/-- 今の世代だけを書き換える。 -/
theorem Orderly.head {phase phase' : Phase} {generation : Nat} {shutdown : Bool}
    {gens : List Generation} (h : Orderly ⟨generation, phase, shutdown, gens⟩)
    {P : Generation.Frame → Prop} (hcur : Current generation (gens.map (·.frame)) P)
    {f : Generation → Generation} (hnumber : ∀ g, (f g).number = g.number)
    (hwatched : ∀ g ∈ gens.head?, P g.frame → (f g).Watched)
    {generation' : Nat} (hpos : 0 < generation')
    (hstanding : ∀ g rest, g.number = generation → P g.frame →
      (∀ old ∈ rest, Past generation old) →
      Standing generation' shutdown ((f g).frame :: rest) phase') :
    Orderly ⟨generation', phase', shutdown, gens.modifyHead f⟩ := by
  obtain ⟨fr, rest, hgens, hnum, hP, hpast⟩ := hcur
  obtain ⟨g, gs, rfl, rfl, rfl⟩ := List.map_eq_cons_iff.mp hgens
  refine ⟨hpos, hstanding g _ hnum hP hpast, ?_, ?_⟩
  · have hs := h.sorted
    simpa [hnumber] using hs
  · intro g' hg'
    rcases List.mem_cons.mp hg' with rfl | hg'
    · exact hwatched g rfl hP
    · exact h.watched g' (List.mem_cons_of_mem _ hg')

section Acts

variable {generation : Nat} {phase : Phase} {shutdown : Bool} {gens : List Generation}
  (h : Orderly ⟨generation, phase, shutdown, gens⟩)

include h

/-- 新しい世代は開いて聞いている。 -/
theorem Orderly.built (relays teardown : Bool) :
    (Server.step ⟨generation, phase, shutdown, gens⟩ (.built relays teardown)).Orderly := by
  have hst := h.standing
  cases phase with
  | building =>
    refine ⟨h.numbered, ⟨_, _, rfl, rfl, ⟨rfl, rfl⟩, hst⟩, ?_, ?_⟩
    · refine List.pairwise_cons.mpr ⟨fun n hn => ?_, h.sorted⟩
      obtain ⟨g, hg, rfl⟩ := List.mem_map.mp hn
      exact (hst g.frame (List.mem_map_of_mem hg)).older
    · intro g hg
      rcases List.mem_cons.mp hg with rfl | hg
      · exact Generation.watched_build generation relays teardown
      · exact h.watched g hg
  | _ => exact h

/-- 最初の世代を作れなければ、何も開かないまま返る。 -/
theorem Orderly.buildFailed (err : String) :
    (Server.step ⟨generation, phase, shutdown, gens⟩ (.buildFailed err)).Orderly := by
  have hst := h.standing
  cases phase with
  | building =>
    refine ⟨h.numbered, ?_, h.sorted, h.watched⟩
    show Standing _ _ _ (if generation = 1 then Phase.returned (.error err) else .retrying)
    split
    · next hfirst =>
      -- 最初の世代より前の番号は無い
      have hnone : ∀ f ∈ gens.map (·.frame), False := fun f hf => by
        have hpos := (hst f hf).numbered
        have hlt : f.number < generation := (hst f hf).older
        omega
      have hnil := List.eq_nil_iff_forall_not_mem.mpr hnone
      exact ⟨Or.inr ⟨hnil, err, rfl⟩, fun f hf => (hnone f hf).elim⟩
    · exact hst
  | _ => exact h

theorem Orderly.retry :
    (Server.step ⟨generation, phase, shutdown, gens⟩ .retry).Orderly := by
  have hst := h.standing
  cases phase with
  | retrying => exact ⟨Nat.succ_pos _, fun f hf => (hst f hf).next, h.sorted, h.watched⟩
  | _ => exact h

theorem Orderly.stop :
    (Server.step ⟨generation, phase, shutdown, gens⟩ .stop).Orderly := by
  have hst := h.standing
  cases phase with
  | retrying =>
    show Orderly (if shutdown then _ else _)
    split
    · next hs =>
      refine ⟨h.numbered, ⟨Or.inl hs, fun f hf => ?_⟩, h.sorted, h.watched⟩
      exact ⟨(hst f hf).closed, (hst f hf).torn, Or.inr (hst f hf)⟩
    · exact h
  | serving =>
    show Orderly (if shutdown then _ else _)
    split
    · next hs =>
      refine h.head hst (f := (·.leave none)) (fun g => rfl) (fun g hg _ => ?_) h.numbered
        fun g rest hn hP hpast => ?_
      · exact (h.watched g (List.mem_of_mem_head? hg)).leave (by simp)
      · exact ⟨fun _ => hs, _, _, rfl, hn, ⟨rfl, fun hc => absurd hc (by decide)⟩, hpast⟩
    · exact h
  | _ => exact h

/-- 離れる理由は、見張りが届けたものである。 -/
theorem Orderly.rebind :
    (Server.step ⟨generation, phase, shutdown, gens⟩ .rebind).Orderly := by
  have hst := h.standing
  cases phase with
  | serving =>
    cases gens with
    | nil => exact h
    | cons cur old =>
      cases hi : cur.inbox with
      | nil => simpa [Server.step, hi] using h
      | cons reason rest =>
        have hstep : Server.step ⟨generation, .serving, shutdown, cur :: old⟩ .rebind =
            Server.leave ⟨generation, .serving, shutdown, cur :: old⟩ false (some reason) := by
          simp [Server.step, hi]
        rw [hstep]
        refine h.head hst (f := (·.leave (some reason))) (fun g => rfl) (fun g hg _ => ?_)
          h.numbered fun g rest hn hP hpast => ?_
        · cases hg
          refine (h.watched cur List.mem_cons_self).leave fun r hr => ?_
          cases hr
          simp [hi]
        · exact ⟨fun hc => absurd hc (by decide), _, _, rfl, hn, ⟨rfl, fun _ => rfl⟩, hpast⟩
  | _ => exact h

theorem Orderly.closed (result : Except String Unit) :
    (Server.step ⟨generation, phase, shutdown, gens⟩ (.closed result)).Orderly := by
  have hst := h.standing
  cases phase with
  | closing stopping =>
    refine h.head hst.2 (f := (·.close)) (fun g => rfl) (fun g hg _ => ?_) h.numbered
      fun g rest hn hP hpast => ?_
    · have hw := h.watched g (List.mem_of_mem_head? hg)
      exact ⟨hw.tracker, hw.streak, hw.told, hw.nodup⟩
    · exact ⟨hst.1, _, _, rfl, hn, ⟨rfl, hP.1, hP.2⟩, hpast⟩
  | _ => exact h

/-- 後始末を終えた世代は、止まるのでなければ終えた世代になる。 -/
theorem Orderly.toreDown :
    (Server.step ⟨generation, phase, shutdown, gens⟩ .toreDown).Orderly := by
  have hst := h.standing
  cases phase with
  | tearing stopping result =>
    have hwatched : ∀ g ∈ gens.head?, g.tearDown.Watched := fun g hg =>
      have hw := h.watched g (List.mem_of_mem_head? hg)
      ⟨hw.tracker, hw.streak, hw.told, hw.nodup⟩
    cases stopping with
    | true =>
      have hdone : ∀ result, Orderly ⟨generation, .returned result, shutdown,
          gens.modifyHead (·.tearDown)⟩ := by
        intro result
        refine h.head hst.2 (f := (·.tearDown)) (fun g => rfl) (fun g hg _ => hwatched g hg) h.numbered
          fun g rest hn hP hpast => ⟨Or.inl (hst.1 rfl), fun f hf => ?_⟩
        rcases List.mem_cons.mp hf with rfl | hf
        · exact ⟨hP.1, rfl, Or.inl hn⟩
        · exact ⟨(hpast f hf).closed, (hpast f hf).torn, Or.inr (hpast f hf)⟩
      cases result with
      | error err => exact hdone _
      | ok u => exact hdone _
    | false =>
      refine h.head hst.2 (f := (·.tearDown)) (fun g => rfl) (fun g hg _ => hwatched g hg)
        (Nat.succ_pos _) fun g rest hn hP hpast f hf => ?_
      rcases List.mem_cons.mp hf with rfl | hf
      · refine ⟨hP.1, rfl, hP.2.1, ?_, ?_, hP.2.2 rfl⟩
        · exact lt_of_lt_of_eq h.numbered hn.symm
        · exact lt_of_eq_of_lt hn (Nat.lt_succ_self generation)
      · exact (hpast f hf).next
  | _ => exact h

end Acts

/-- loop がどこへ進んでも、開いているのは今の世代だけである。 -/
theorem Orderly.step (h : s.Orderly) (act : Act) : (s.step act).Orderly := by
  cases act with
  | sampleRelays number statuses now =>
    exact h.onGeneration number (fun g => g.frame_sampleRelays statuses now)
      fun g hg => hg.sampleRelays statuses now
  | startLookup number =>
    exact h.onGeneration number Generation.frame_startLookup fun g hg => hg.startLookup
  | finishLookup number lookup live =>
    exact h.onGeneration number (fun g => g.frame_finishLookup lookup live)
      fun g hg => hg.finishLookup lookup live
  | interrupt => exact ⟨h.numbered, h.standing.interrupt, h.sorted, h.watched⟩
  | built relays teardown => exact Orderly.built h relays teardown
  | buildFailed err => exact Orderly.buildFailed h err
  | retry => exact Orderly.retry h
  | stop => exact Orderly.stop h
  | rebind => exact Orderly.rebind h
  | closed result => exact Orderly.closed h result
  | toreDown => exact Orderly.toreDown h

theorem orderly_exec (acts : List Act) : (start.exec acts).Orderly :=
  List.foldlRecOn acts step orderly_start fun _ h act _ => h.step act

/-! ## 結論 -/

theorem Current.mem {generation : Nat} {frames : List Generation.Frame}
    {P : Generation.Frame → Prop} (h : Current generation frames P) {f : Generation.Frame}
    (hf : f ∈ frames) : Past generation f ∨ f.number = generation ∧ P f := by
  obtain ⟨cur, rest, rfl, hn, hP, hold⟩ := h
  rcases List.mem_cons.mp hf with rfl | hf
  · exact Or.inr ⟨hn, hP⟩
  · exact Or.inl (hold f hf)

/-- どの世代も、終えた世代か、今の世代である。今の世代が開いているのは、閉じ終えるまでの間だけである。 -/
theorem Orderly.past_or_current (h : s.Orderly) {g : Generation} (hg : g ∈ s.gens) :
    Past s.generation g.frame ∨ g.number = s.generation ∧
      (g.endpointOpen = true → s.phase = .serving ∨ ∃ stopping, s.phase = .closing stopping) := by
  have hst := h.standing
  have hmem : g.frame ∈ s.gens.map (·.frame) := List.mem_map_of_mem hg
  cases hphase : s.phase with
  | building =>
    rw [hphase] at hst
    exact Or.inl (hst _ hmem)
  | retrying =>
    rw [hphase] at hst
    exact Or.inl (hst _ hmem)
  | serving =>
    rw [hphase] at hst
    exact (Current.mem hst hmem).imp_right fun hc => ⟨hc.1, fun _ => Or.inl rfl⟩
  | closing stopping =>
    rw [hphase] at hst
    exact (Current.mem hst.2 hmem).imp_right fun hc => ⟨hc.1, fun _ => Or.inr ⟨stopping, rfl⟩⟩
  | tearing stopping result =>
    rw [hphase] at hst
    exact (Current.mem hst.2 hmem).imp_right fun hc =>
      ⟨hc.1, fun ho => absurd (hc.2.1.symm.trans ho) (by decide)⟩
  | returned result =>
    rw [hphase] at hst
    obtain ⟨hclosed, -, hn | hp⟩ := hst.2 _ hmem
    · exact Or.inr ⟨hn, fun ho => absurd (hclosed.symm.trans ho) (by decide)⟩
    · exact Or.inl hp

theorem Orderly.open_current (h : s.Orderly) {g : Generation} (hg : g ∈ s.gens)
    (hopen : g.endpointOpen = true) : g.number = s.generation := by
  rcases h.past_or_current hg with hp | hc
  · exact absurd (hp.closed.symm.trans hopen) (by decide)
  · exact hc.1

theorem Orderly.past (h : s.Orderly) {g : Generation} (hg : g ∈ s.gens)
    (hold : g.number < s.generation) : Past s.generation g.frame :=
  (h.past_or_current hg).resolve_right fun hc => Nat.ne_of_lt hold hc.1

/--
**世代は重ならない。** どう進んでも、開いている endpoint は高々一つで、それは今の世代のものである。
番号は作るたびに増える。次を作り始める前と loop が終わった後には、どの世代も閉じ終えて teardown も
済んでいる。loop が終わるのは、停止の合図の後か、最初の世代を作れなかったときだけである。
-/
theorem generations_exclusive (acts : List Act) :
    let s := start.exec acts
    (s.gens.filter (·.endpointOpen)).length ≤ 1 ∧
    (s.gens.map (·.number)).Pairwise (· > ·) ∧
    (∀ g ∈ s.gens, g.endpointOpen = true → g.number = s.generation) ∧
    (s.phase = .building ∨ s.phase = .retrying ∨ (∃ result, s.phase = .returned result) →
      ∀ g ∈ s.gens, g.endpointOpen = false ∧ g.teardown = false) ∧
    (∀ result, s.phase = .returned result →
      s.shutdown = true ∨ s.gens = [] ∧ ∃ err, result = .error err) := by
  intro s
  have h : s.Orderly := orderly_exec acts
  have hcurrent : ∀ g ∈ s.gens, g.endpointOpen = true → g.number = s.generation :=
    fun g hg ho => h.open_current hg ho
  refine ⟨?_, h.sorted, hcurrent, ?_, ?_⟩
  · have hsub : ((s.gens.filter (·.endpointOpen)).map (·.number)).Pairwise (· > ·) :=
      h.sorted.sublist (List.filter_sublist.map _)
    have hmem : ∀ x ∈ s.gens.filter (·.endpointOpen), x.number = s.generation := fun x hx =>
      hcurrent x (List.mem_filter.mp hx).1 (List.mem_filter.mp hx).2
    generalize s.gens.filter (·.endpointOpen) = opened at hsub hmem
    rcases opened with _ | ⟨a, _ | ⟨b, rest⟩⟩
    · exact Nat.zero_le 1
    · exact Nat.le_refl 1
    · have hlt : b.number < a.number := (List.pairwise_cons.mp hsub).1 b.number (by simp)
      have ha := hmem a (by simp)
      have hb := hmem b (by simp)
      omega
  · intro hphase g hg
    have hst := h.standing
    have hmem : g.frame ∈ s.gens.map (·.frame) := List.mem_map_of_mem hg
    rcases hphase with hp | hp | ⟨result, hp⟩
    · rw [hp] at hst
      exact ⟨(hst _ hmem).closed, (hst _ hmem).torn⟩
    · rw [hp] at hst
      exact ⟨(hst _ hmem).closed, (hst _ hmem).torn⟩
    · rw [hp] at hst
      exact ⟨(hst.2 _ hmem).1, (hst.2 _ hmem).2.1⟩
  · intro result hp
    have hst := h.standing
    rw [hp] at hst
    exact hst.1.imp_right fun hn => ⟨List.map_eq_nil_iff.mp hn.1, hn.2⟩

/--
**作り直しには証拠があり、証拠は必ず作り直しになる。** 前の世代はどれも、その世代の見張りが受け取った
標本の示す理由で離れたもので、ほかの世代の見張りや、繋がったことの無い endpoint の途絶では離れない。
待っている間に今の世代の証拠が揃えば知らせは channel にあり、受け取れば、router が閉じ損なっても次の
世代を作りに行く。証拠が無ければ受け取るものも無い。
-/
theorem rebinds_follow_evidence (acts : List Act) :
    let s := start.exec acts
    (∀ g ∈ s.gens, g.number < s.generation → ∃ r, g.leftFor = some r ∧ g.Evidence r) ∧
    (s.phase = .serving → ∃ g rest, s.gens = g :: rest ∧ g.number = s.generation ∧
      ((∃ r, g.Evidence r) → ∀ result,
        (((s.step .rebind).step (.closed result)).step .toreDown).phase = .building ∧
        (((s.step .rebind).step (.closed result)).step .toreDown).generation =
          s.generation + 1) ∧
      ((¬ ∃ r, g.Evidence r) → s.step .rebind = s)) := by
  intro s
  have h : s.Orderly := orderly_exec acts
  refine ⟨fun g hg hold => ?_, fun hphase => ?_⟩
  · obtain ⟨r, hr⟩ := Option.isSome_iff_exists.mp (h.past hg hold).left
    exact ⟨r, hr, (((h.watched g hg).told r).left hr).2⟩
  · have hst := h.standing
    rw [hphase] at hst
    obtain ⟨f, frames, hgens, hn, ⟨-, hlisten⟩, -⟩ := hst
    obtain ⟨g, rest, hcons, rfl, rfl⟩ := List.map_eq_cons_iff.mp hgens
    have hw := h.watched g (hcons ▸ List.mem_cons_self)
    refine ⟨g, rest, hcons, hn, ?_, ?_⟩
    · rintro ⟨r, hr⟩ result
      obtain ⟨reason, others, hi⟩ := List.exists_cons_of_ne_nil
        (List.ne_nil_of_mem ((hw.told r).heard hlisten hr))
      have hstep : s.step .rebind = s.leave false (some reason) := by
        simp [Server.step, hphase, hcons, hi]
      rw [hstep]
      exact ⟨rfl, rfl⟩
    · intro hnone
      have hi : g.inbox = [] := List.eq_nil_iff_forall_not_mem.mpr fun r hr =>
        hnone ⟨r, ((hw.told r).told hr).2⟩
      simp [Server.step, hphase, hcons, hi]

end Server

end Serve

end SecretBunker
