import SecretBunker.Replica.Outline
import SecretBunker.Replica.Session

/-!
# 同期の task の一生

`src/replica.rs` の `run_sync` と `run_connection` の、接続し直す間隔と停止の手順。session の中身は
`Replica.Session` のままで、その外側に、接続、`inner.conn` の置き場、停止の watch channel、
`Replica::shutdown` を呼んだ側を置く。

停止は三つの手で届く。watch の変化は待つ枝の一つになり、置き場の接続を閉じれば残りの待ちが失敗し、
dial したばかりの接続は置き場に入れた後で watch を見直す。呼んだ側と task は別の thread なので、
手の間には何でも挟まる。

`shutdown_reaches_task` は、停止がどの待ちにも届き、戻った後には接続も書き込みも残らないことを言う。

`select!` は用意のできた枝のどれを選んでもよい。接続は、持ち手がいなくなれば閉じる。
-/

namespace SecretBunker

open Interleaving

namespace Replica

/-- `BACKOFF_INITIAL`、秒。 -/
def backoffInitial : Nat := 1

/-- `BACKOFF_CAP`、秒。 -/
def backoffCap : Nat := 60

/-- task の居場所。接続は dial した順の番号で呼ぶ。 -/
inductive Site where
  /-- 接続か停止を待っている。 -/
  | dialling
  /-- 接続を得て、まだ置き場に入れていない。 -/
  | dialled (conn : Nat)
  /-- 置き場に入れて、watch を見直すところ。 -/
  | checking (conn : Nat)
  | session (conn : Nat)
  /-- 次の接続まで間を置いている。 -/
  | sleeping
  | finished
  deriving DecidableEq

/-- `Replica::shutdown` を呼んだ側の居場所。 -/
inductive Caller where
  | idle
  /-- watch に書いた。 -/
  | signalled
  /-- 置き場の接続を取り出した。 -/
  | taken (conn : Option Nat)
  /-- 取り出した接続を閉じ、task を待っている。 -/
  | joining
  | done
  deriving DecidableEq

/-- 接続と停止に関わる部分。 -/
structure Control where
  site : Site
  /-- これまでに得た接続の数。 -/
  conns : Nat
  closed : List Nat
  /-- `inner.conn` -/
  slot : Option Nat
  /-- watch の値と、task がその変化を見たか。 -/
  flag : Bool
  seen : Bool
  caller : Caller

namespace Control

def start : Control := ⟨.dialling, 0, [], none, false, false, .idle⟩

def closeConn (k : Control) (conn : Nat) : Control := { k with closed := conn :: k.closed }

/-- 持ち手を一つ放す。置き場にも呼んだ側にも無ければ閉じる。 -/
def release (k : Control) (conn : Nat) : Control :=
  if k.slot = some conn ∨ k.caller = .taken (some conn) then k else k.closeConn conn

def dial (k : Control) : Control :=
  match k.site with
  | .dialling => { k with site := .dialled k.conns, conns := k.conns + 1 }
  | _ => k

/-- 置き場に入れる。前の接続の持ち手はこれでいなくなる。 -/
def stash (k : Control) : Control :=
  match k.site with
  | .dialled conn =>
    let stashed := { k with site := .checking conn, slot := some conn }
    match k.slot with
    | some old => stashed.release old
    | none => stashed
  | _ => k

def check (k : Control) : Control :=
  match k.site with
  | .checking conn =>
    if k.flag then { k.closeConn conn with site := .finished } else { k with site := .session conn }
  | _ => k

/-- `run_connection` が失敗で戻り、間を置く。 -/
def fall (k : Control) : Control :=
  match k.site with
  | .dialling => { k with site := .sleeping }
  | .session conn => { k with site := .sleeping }.release conn
  | _ => k

/-- `select!` が watch の枝を選ぶ。`raced` でない待ちは watch と競わない。 -/
def notice (k : Control) (raced : Bool) : Control :=
  if k.flag && !k.seen then
    match k.site with
    | .dialling | .sleeping => { k with seen := true, site := .finished }
    | .session conn =>
      if raced then { k.closeConn conn with seen := true, site := .finished } else k
    | _ => k
  else k

def slept (k : Control) : Control :=
  match k.site with
  | .sleeping => { k with site := .dialling }
  | _ => k

def signal (k : Control) : Control :=
  match k.caller with
  | .idle => { k with flag := true, caller := .signalled }
  | _ => k

def take (k : Control) : Control :=
  match k.caller with
  | .signalled => { k with caller := .taken k.slot, slot := none }
  | _ => k

def close (k : Control) : Control :=
  match k.caller with
  | .taken (some conn) => { k.closeConn conn with caller := .joining }
  | .taken none => { k with caller := .joining }
  | _ => k

def join (k : Control) : Control :=
  match k.caller with
  | .joining => if k.site = .finished then { k with caller := .done } else k
  | _ => k

/-! ## 持ち手の不変条件 -/

/-- 接続を持っているのが task である。 -/
def Holds (k : Control) (conn : Nat) : Prop :=
  k.site = .dialled conn ∨ k.site = .checking conn ∨ k.site = .session conn

/-- 呼んだ側が閉じるか、閉じ終えた接続。 -/
def InReach (k : Control) (conn : Nat) : Prop :=
  conn ∈ k.closed ∨ k.slot = some conn ∨ k.caller = .taken (some conn)

/-- 呼んだ側は、置き場をもう見ない。 -/
def Late (k : Control) : Prop := k.caller ≠ .idle ∧ k.caller ≠ .signalled

/-- 閉じていない接続には持ち手がいて、停止の手順はそこに届く。 -/
structure Sound (k : Control) : Prop where
  seen : k.seen = true → k.site = .finished
  finished : k.site = .finished → k.flag = true
  flag : k.flag = true ↔ k.caller ≠ .idle
  /-- 閉じていない接続の持ち手。 -/
  owned : ∀ c < k.conns, k.Holds c ∨ k.InReach c
  /-- 使っている接続には、呼んだ側の手が届く。 -/
  reach : ∀ c, k.site = .checking c ∨ k.site = .session c → k.InReach c
  /-- 呼んだ側が見終えた後の置き場は、これから見直すか、閉じた接続である。 -/
  late : k.Late → ∀ c, k.slot = some c → k.site = .checking c ∨ c ∈ k.closed
  joined : k.caller = .done → k.site = .finished

variable {k : Control}

theorem sound_start : start.Sound where
  seen := by simp [start]
  finished := by simp [start]
  flag := by simp [start]
  owned := by simp [start]
  reach := by simp [start]
  late := by simp [start, Late]
  joined := by simp [start]

theorem release_eq (k : Control) (conn : Nat) :
    ∃ closed, k.release conn = { k with closed } ∧ ∀ c ∈ k.closed, c ∈ closed := by
  unfold release
  split
  · exact ⟨k.closed, rfl, fun _ h => h⟩
  · exact ⟨conn :: k.closed, rfl, fun _ h => List.mem_cons_of_mem _ h⟩

/-- task の動きだけの一歩。終わっていない居場所から、`seen` を変えずに動く。 -/
theorem Sound.moves (h : k.Sound) {site : Site} {conns : Nat} {closed : List Nat}
    {slot : Option Nat} (hbefore : k.site ≠ .finished)
    (hafter : site = .finished → k.flag = true)
    (howned : ∀ c < conns, Holds ⟨site, conns, closed, slot, k.flag, k.seen, k.caller⟩ c ∨
      InReach ⟨site, conns, closed, slot, k.flag, k.seen, k.caller⟩ c)
    (hreach : ∀ c, site = .checking c ∨ site = .session c →
      InReach ⟨site, conns, closed, slot, k.flag, k.seen, k.caller⟩ c)
    (hlate : k.Late → ∀ c, slot = some c → site = .checking c ∨ c ∈ closed) :
    Sound ⟨site, conns, closed, slot, k.flag, k.seen, k.caller⟩ where
  seen := fun hs => absurd (h.seen hs) hbefore
  finished := hafter
  flag := h.flag
  owned := howned
  reach := hreach
  late := hlate
  joined := fun hc => absurd (h.joined hc) hbefore

theorem Sound.dial (h : k.Sound) : k.dial.Sound := by
  unfold Control.dial
  cases hs : k.site with
  | dialling =>
    refine h.moves (by simp [hs]) (by simp) (fun c hc => ?_) (by simp) fun hl c hc => ?_
    · rcases Nat.lt_succ_iff_lt_or_eq.mp hc with hc | rfl
      · exact Or.inr ((h.owned c hc).resolve_left (by simp [Holds, hs]))
      · exact Or.inl (Or.inl rfl)
    · exact Or.inr ((h.late hl c hc).resolve_left (by simp [hs]))
  | _ => exact h

theorem Sound.slept (h : k.Sound) : k.slept.Sound := by
  unfold Control.slept
  cases hs : k.site with
  | sleeping =>
    refine h.moves (by simp [hs]) (by simp) (fun c hc => ?_) (by simp) fun hl c hc => ?_
    · exact Or.inr ((h.owned c hc).resolve_left (by simp [Holds, hs]))
    · exact Or.inr ((h.late hl c hc).resolve_left (by simp [hs]))
  | _ => exact h

/-- 置き場に入れた後も、前の接続は閉じたか、呼んだ側が持っている。 -/
theorem stash_eq {conn : Nat} (hs : k.site = .dialled conn) :
    ∃ closed, k.stash = ⟨.checking conn, k.conns, closed, some conn, k.flag, k.seen, k.caller⟩ ∧
      (∀ c ∈ k.closed, c ∈ closed) ∧
      ∀ old, k.slot = some old → old ∈ closed ∨ old = conn ∨ k.caller = .taken (some old) := by
  unfold stash
  rw [hs]
  dsimp only
  cases hslot : k.slot with
  | none => exact ⟨k.closed, rfl, fun _ h => h, by simp⟩
  | some old =>
    dsimp only [release]
    split
    · next h =>
      refine ⟨k.closed, rfl, fun _ h => h, fun x hx => ?_⟩
      cases hx
      exact Or.inr (h.imp_left fun hc => (Option.some.inj hc).symm)
    · refine ⟨old :: k.closed, rfl, fun _ h => List.mem_cons_of_mem _ h, fun x hx => ?_⟩
      cases hx
      exact Or.inl List.mem_cons_self

theorem Sound.stash (h : k.Sound) : k.stash.Sound := by
  cases hs : k.site with
  | dialled conn =>
    obtain ⟨closed, heq, hmono, hold⟩ := stash_eq hs
    rw [heq]
    refine h.moves (by simp [hs]) (by simp) (fun c hc => ?_) (fun c hc => ?_) fun _ c hc => ?_
    · rcases h.owned c hc with hh | hcl | hslot | htaken
      · have hconn : c = conn := by simpa [Holds, hs, eq_comm] using hh
        exact Or.inl (Or.inr (Or.inl (by rw [hconn])))
      · exact Or.inr (Or.inl (hmono c hcl))
      · rcases hold c hslot with hcl | rfl | htaken
        · exact Or.inr (Or.inl hcl)
        · exact Or.inr (Or.inr (Or.inl rfl))
        · exact Or.inr (Or.inr (Or.inr htaken))
      · exact Or.inr (Or.inr (Or.inr htaken))
    · have hconn : c = conn := by simpa [eq_comm] using hc
      exact Or.inr (Or.inl (by rw [hconn]))
    · exact Or.inl (by rw [Option.some.inj hc])
  | _ =>
    unfold Control.stash
    rw [hs]
    exact h

theorem Sound.check (h : k.Sound) : k.check.Sound := by
  unfold Control.check
  cases hs : k.site with
  | checking conn =>
    have hconn : k.InReach conn := h.reach conn (Or.inl hs)
    dsimp only
    split
    · next hflag =>
      refine h.moves (by simp [hs]) (fun _ => hflag) (fun c hc => ?_) (by simp) fun hl c hc => ?_
      · rcases h.owned c hc with hh | hcl | hrest
        · have he : conn = c := by simpa [Holds, hs] using hh
          exact Or.inr (Or.inl (he ▸ List.mem_cons_self))
        · exact Or.inr (Or.inl (List.mem_cons_of_mem _ hcl))
        · exact Or.inr (Or.inr hrest)
      · rcases h.late hl c hc with hsite | hcl
        · have he : conn = c := by simpa [hs] using hsite
          exact Or.inr (he ▸ List.mem_cons_self)
        · exact Or.inr (List.mem_cons_of_mem _ hcl)
    · next hflag =>
      refine h.moves (by simp [hs]) (by simp) (fun c hc => ?_) (fun c hc => ?_) fun hl c hc => ?_
      · rcases h.owned c hc with hh | hr
        · have he : conn = c := by simpa [Holds, hs] using hh
          exact Or.inl (Or.inr (Or.inr (by rw [he])))
        · exact Or.inr hr
      · have he : conn = c := by simpa using hc
        exact he ▸ hconn
      · -- watch に書く前なら、呼んだ側は置き場を見ていない
        exact absurd (h.flag.mpr hl.1) hflag
  | _ => exact h

theorem fall_session {conn : Nat} (hs : k.site = .session conn) :
    ∃ closed, k.fall = ⟨.sleeping, k.conns, closed, k.slot, k.flag, k.seen, k.caller⟩ ∧
      ∀ c ∈ k.closed, c ∈ closed := by
  obtain ⟨closed, heq, hmono⟩ := release_eq { k with site := .sleeping } conn
  refine ⟨closed, ?_, hmono⟩
  unfold fall
  rw [hs]
  exact heq

theorem Sound.fall (h : k.Sound) : k.fall.Sound := by
  cases hs : k.site with
  | dialling =>
    unfold Control.fall
    rw [hs]
    refine h.moves (by simp [hs]) (by simp) (fun c hc => ?_) (by simp) fun hl c hc => ?_
    · exact Or.inr ((h.owned c hc).resolve_left (by simp [Holds, hs]))
    · exact Or.inr ((h.late hl c hc).resolve_left (by simp [hs]))
  | session conn =>
    -- 使っていた接続には呼んだ側の手が届くので、放しても閉じるとは限らない
    have hreach := h.reach conn (Or.inr hs)
    obtain ⟨closed, heq, hmono⟩ := fall_session hs
    rw [heq]
    refine h.moves (by simp [hs]) (by simp) (fun c hc => ?_) (by simp) fun hl c hc => ?_
    · rcases h.owned c hc with hh | hcl | hrest
      · have he : conn = c := by simpa [Holds, hs] using hh
        exact Or.inr (he ▸ hreach.imp_left (hmono conn))
      · exact Or.inr (Or.inl (hmono c hcl))
      · exact Or.inr (Or.inr hrest)
    · exact Or.inr (hmono c ((h.late hl c hc).resolve_left (by simp [hs])))
  | _ =>
    unfold Control.fall
    rw [hs]
    exact h

/-- watch に気付いて終わる。持っていた接続は閉じている。 -/
theorem Sound.halts (h : k.Sound) {closed : List Nat} (hflag : k.flag = true)
    (hmono : ∀ c ∈ k.closed, c ∈ closed) (hheld : ∀ c, k.Holds c → c ∈ closed)
    (hsite : ∀ c, k.site ≠ .checking c) :
    Sound { k with closed, seen := true, site := .finished } where
  seen := fun _ => rfl
  finished := fun _ => hflag
  flag := h.flag
  owned := by
    intro c hc
    rcases h.owned c hc with hh | hcl | hrest
    · exact Or.inr (Or.inl (hheld c hh))
    · exact Or.inr (Or.inl (hmono c hcl))
    · exact Or.inr (Or.inr hrest)
  reach := by simp
  late := fun hl c hc => Or.inr (hmono c ((h.late hl c hc).resolve_left (hsite c)))
  joined := fun _ => rfl

theorem Sound.notice (h : k.Sound) (raced : Bool) : (k.notice raced).Sound := by
  unfold Control.notice
  split
  · next hready =>
    have hflag : k.flag = true := by simp_all
    cases hs : k.site with
    | dialling => exact h.halts hflag (fun _ hc => hc) (by simp [Holds, hs]) (by simp [hs])
    | sleeping => exact h.halts hflag (fun _ hc => hc) (by simp [Holds, hs]) (by simp [hs])
    | session conn =>
      dsimp only
      split
      · refine h.halts hflag (fun _ hc => List.mem_cons_of_mem _ hc) (fun c hc => ?_) (by simp [hs])
        have he : conn = c := by simpa [Holds, hs] using hc
        exact he ▸ List.mem_cons_self
      · exact h
    | _ => exact h
  · exact h

/-! ### 呼んだ側 -/

theorem Sound.signal (h : k.Sound) : k.signal.Sound := by
  unfold Control.signal
  cases hc : k.caller with
  | idle =>
    exact {
      seen := h.seen
      finished := fun _ => rfl
      flag := by simp
      owned := fun c hlt => by simpa [Holds, InReach, hc] using h.owned c hlt
      reach := fun c hs => by simpa [InReach, hc] using h.reach c hs
      late := fun hl => absurd rfl hl.2
      joined := fun hd => by cases hd }
  | _ => exact h

theorem Sound.take (h : k.Sound) : k.take.Sound := by
  unfold Control.take
  cases hc : k.caller with
  | signalled =>
    have hreach : ∀ c, k.InReach c → InReach { k with caller := .taken k.slot, slot := none } c := by
      rintro c (hcl | hslot | htaken)
      · exact Or.inl hcl
      · exact Or.inr (Or.inr (by rw [hslot]))
      · exact absurd (hc.symm.trans htaken) (by simp)
    exact {
      seen := h.seen
      finished := h.finished
      flag := by simp [h.flag, hc]
      owned := fun c hlt => (h.owned c hlt).imp_right (hreach c)
      reach := fun c hs => hreach c (h.reach c hs)
      late := fun _ c hslot => by cases hslot
      joined := fun hd => by cases hd }
  | _ => exact h

/-- 接続を閉じる一歩も `Sound` を保つ。 -/
theorem Sound.close (h : k.Sound) : k.close.Sound := by
  -- 取り出した接続だけが、持ち手を失う
  have key : ∀ (conn : Option Nat) (closed : List Nat), k.caller = .taken conn →
      (∀ c ∈ k.closed, c ∈ closed) → (∀ c, conn = some c → c ∈ closed) →
      Sound { k with closed, caller := .joining } := by
    intro conn closed hc hmono htaken
    have hlate : k.Late := by simp [Late, hc]
    have hreach : ∀ c, k.InReach c → InReach { k with closed, caller := .joining } c := by
      rintro c (hcl | hslot | ht)
      · exact Or.inl (hmono c hcl)
      · exact Or.inr (Or.inl hslot)
      · rw [hc] at ht
        cases ht
        exact Or.inl (htaken c rfl)
    exact {
      seen := h.seen
      finished := h.finished
      flag := by simp [h.flag, hc]
      owned := fun c hlt => (h.owned c hlt).imp_right (hreach c)
      reach := fun c hs => hreach c (h.reach c hs)
      late := fun _ c hslot => (h.late hlate c hslot).imp_right (hmono c)
      joined := fun hd => by cases hd }
  unfold Control.close
  cases hc : k.caller with
  | taken conn =>
    cases conn with
    | none => exact key none k.closed hc (fun _ hcl => hcl) (by simp)
    | some conn =>
      refine key (some conn) (conn :: k.closed) hc (fun _ hcl => List.mem_cons_of_mem _ hcl) ?_
      rintro c ⟨⟩
      exact List.mem_cons_self
  | _ => exact h

theorem Sound.join (h : k.Sound) : k.join.Sound := by
  unfold Control.join
  cases hc : k.caller with
  | joining =>
    dsimp only
    split
    · next hs =>
      have hlate : k.Late := by simp [Late, hc]
      exact {
        seen := fun _ => hs
        finished := h.finished
        flag := by simp [h.flag, hc]
        owned := fun c hlt => by simpa [Holds, InReach, hc] using h.owned c hlt
        reach := fun c hsite => by simpa [InReach, hc] using h.reach c hsite
        late := fun _ => h.late hlate
        joined := fun _ => hs }
    · exact h
  | _ => exact h

end Control

/-- task と、それに触れるもの。 -/
structure SyncTask (Υ : Type) where
  session : Session Υ
  control : Control
  backoff : Nat
  /-- `consecutive_failures` -/
  failures : Nat

namespace SyncTask

variable {Υ : Type}

inductive Act where
  | dialled
  | dialFailed
  | stash
  | check
  | receive (message : SyncMessage)
  | advance
  /-- stream か接続が失敗する。閉じた接続の待ちはこれしか起きない。 -/
  | fail
  | notice
  | slept
  | signal
  | take
  | close
  | join
  | tick (now : Int)
  | serve (log : List AuditRow)

/-- `spawn` の直後。 -/
def spawn (upstream : Υ) (mirror : Db) (now : Int) : SyncTask Υ where
  session := ⟨⟨upstream, mirror, now, [], false, none⟩, .down⟩
  control := .start
  backoff := backoffInitial
  failures := 0

/-- `run_connection` の失敗。応じてもらえた接続の失敗から数え直す。 -/
def fall (t : SyncTask Υ) (wasConnected : Bool) (session : Session Υ) : SyncTask Υ where
  session := session
  control := t.control.fall
  backoff := t.backoff
  failures := (if wasConnected then 0 else t.failures) + 1

/-- session が一歩進む。接続を離れたら、接続の失敗である。 -/
def follow (t : SyncTask Υ) (wasConnected : Bool) (session : Session Υ) : SyncTask Υ :=
  match session.phase with
  | .down => t.fall wasConnected session
  | _ => { t with session }

/-- Hello に応じてもらえた。 -/
def greets : Phase Υ → SyncMessage → Bool
  | .manifest false _, message => message ≠ .syncDenied
  | _, _ => false

/-- 手続きの途中の待ちは watch と競わない。 -/
def raced : Phase Υ → Bool
  | .working _ _ => false
  | _ => true

/-- 停止した task の session。 -/
def halt (site : Site) (s : Session Υ) : Session Υ :=
  if site = .finished then ⟨s.link, .stopped⟩ else s

variable (up : Upstream Υ) (prim : Primitives) (own : String)

def receive (t : SyncTask Υ) (message : SyncMessage) : SyncTask Υ :=
  let greeted := greets t.session.phase message
  follow { t with backoff := if greeted then backoffInitial else t.backoff }
    (t.session.link.connected || greeted) (t.session.receive up prim own message)

def step (t : SyncTask Υ) : Act → SyncTask Υ
  | .dialled => { t with control := t.control.dial }
  | .dialFailed =>
    match t.control.site with
    | .dialling => t.fall t.session.link.connected (disconnect t.session.link)
    | _ => t
  | .stash => { t with control := t.control.stash }
  | .check =>
    match t.control.site with
    | .checking _ => { t with
        control := t.control.check
        session := halt t.control.check.site (t.session.step up prim own .connect) }
    | _ => t
  | .receive message =>
    match t.control.site with
    | .session conn => if conn ∈ t.control.closed then t else t.receive up prim own message
    | _ => t
  | .advance =>
    match t.control.site with
    | .session _ => t.follow t.session.link.connected t.session.advance
    | _ => t
  | .fail =>
    match t.control.site with
    | .session _ => t.fall t.session.link.connected (disconnect t.session.link)
    | _ => t
  | .notice => { t with
      control := t.control.notice (raced t.session.phase)
      session := halt (t.control.notice (raced t.session.phase)).site t.session }
  | .slept =>
    match t.control.site with
    | .sleeping => { t with
        control := t.control.slept
        backoff := min (t.backoff * 2) backoffCap }
    | _ => t
  | .signal => { t with control := t.control.signal }
  | .take => { t with control := t.control.take }
  | .close => { t with control := t.control.close }
  | .join => { t with control := t.control.join }
  | .tick now => { t with session := t.session.step up prim own (.tick now) }
  | .serve log => { t with session := t.session.step up prim own (.serve log) }

def exec (t : SyncTask Υ) (acts : List Act) : SyncTask Υ := acts.foldl (step up prim own) t

/-! ## 停止 -/

variable {up prim own} {t : SyncTask Υ}

/-- session の一歩が接続に及ぼすのは、接続の失敗だけである。 -/
theorem control_follow (t : SyncTask Υ) (wasConnected : Bool) (session : Session Υ) :
    (t.follow wasConnected session).control = t.control ∨
      (t.follow wasConnected session).control = t.control.fall := by
  unfold follow
  split
  · exact Or.inr rfl
  · exact Or.inl rfl

theorem sound_follow (h : t.control.Sound) (wasConnected : Bool) (session : Session Υ) :
    (t.follow wasConnected session).control.Sound := by
  rcases control_follow t wasConnected session with he | he
  · rw [he]
    exact h
  · rw [he]
    exact h.fall

theorem sound_receive (h : t.control.Sound) (message : SyncMessage) :
    (t.receive up prim own message).control.Sound := by
  unfold receive
  exact sound_follow (by exact h) _ _

/-- どの一歩も、制御の状態を正しく保つ。 -/
theorem sound_step (h : t.control.Sound) (act : Act) : (t.step up prim own act).control.Sound := by
  cases act with
  | dialled => exact h.dial
  | stash => exact h.stash
  | notice => exact h.notice _
  | signal => exact h.signal
  | take => exact h.take
  | close => exact h.close
  | join => exact h.join
  | tick now => exact h
  | serve log => exact h
  | dialFailed =>
    dsimp only [step]
    split
    · exact h.fall
    · exact h
  | check =>
    dsimp only [step]
    split
    · exact h.check
    · exact h
  | receive message =>
    dsimp only [step]
    split
    · split
      · exact h
      · exact sound_receive h message
    · exact h
  | advance =>
    dsimp only [step]
    split
    · exact sound_follow h _ _
    · exact h
  | fail =>
    dsimp only [step]
    split
    · exact h.fall
    · exact h
  | slept =>
    dsimp only [step]
    split
    · exact h.slept
    · exact h

theorem sound_exec (upstream : Υ) (mirror : Db) (now : Int) (acts : List Act) :
    ((spawn upstream mirror now).exec up prim own acts).control.Sound :=
  List.foldlRecOn (motive := fun t : SyncTask Υ => t.control.Sound) acts (step up prim own)
    Control.sound_start fun _ h act _ => sound_step h act

/-- 合図の後に task が自分だけで進める道のり。閉じた接続の待ちは失敗する。 -/
def wayOut : List Act := [.stash, .check, .fail, .notice]

/-- 合図の後の task は、どこにいても道のりの終わりには止まっている。 -/
theorem finished_wayOut (h : t.control.Sound) (hflag : t.control.flag = true) :
    (t.exec up prim own wayOut).control.site = .finished := by
  have hseen : t.control.site ≠ .finished → t.control.seen = false := fun hs =>
    Bool.eq_false_iff.mpr fun hc => hs (h.seen hc)
  cases hs : t.control.site with
  | finished => simp [wayOut, exec, step, Control.stash, Control.notice, hs]
  | dialling =>
    simp [wayOut, exec, step, Control.stash, Control.notice, hs, hflag, hseen]
  | sleeping =>
    simp [wayOut, exec, step, Control.stash, Control.notice, hs, hflag, hseen]
  | checking conn =>
    simp [wayOut, exec, step, Control.stash, Control.check, Control.closeConn, Control.notice, hs, hflag]
  | dialled conn =>
    obtain ⟨closed, heq, -⟩ := Control.stash_eq hs
    simp [wayOut, exec, step, heq, Control.check, Control.closeConn, Control.notice, hflag]
  | session conn =>
    obtain ⟨closed, heq, -⟩ := Control.fall_session hs
    simp [wayOut, exec, step, fall, Control.stash, Control.notice, hs, heq, hflag, hseen]

/-- 呼んだ側が戻った後の一歩は、接続にも mirror の行にも触れない。 -/
theorem step_done (hsite : t.control.site = .finished) (hcaller : t.control.caller = .done)
    (act : Act) : (t.step up prim own act).control = t.control ∧
      SameRows t.session.link.mirror (t.step up prim own act).session.link.mirror := by
  have hsame : SameRows t.session.link.mirror t.session.link.mirror := .refl _
  cases act with
  | tick now => exact ⟨rfl, hsame⟩
  | serve log => exact ⟨rfl, log, rfl⟩
  | notice =>
    have hk : t.control.notice (raced t.session.phase) = t.control := by
      unfold Control.notice
      rw [hsite]
      split <;> rfl
    refine ⟨hk, ?_⟩
    simpa [step, halt, hk, hsite] using hsame
  | dialled => simp [step, Control.dial, hsite, hsame]
  | stash => simp [step, Control.stash, hsite, hsame]
  | signal => simp [step, Control.signal, hcaller, hsame]
  | take => simp [step, Control.take, hcaller, hsame]
  | close => simp [step, Control.close, hcaller, hsame]
  | join => simp [step, Control.join, hcaller, hsame]
  | dialFailed => simp [step, hsite, hsame]
  | check => simp [step, hsite, hsame]
  | receive message => simp [step, hsite, hsame]
  | advance => simp [step, hsite, hsame]
  | fail => simp [step, hsite, hsame]
  | slept => simp [step, hsite, hsame]

/--
**停止は必ず届き、何も残さない。** task が終わるのは停止の合図の後だけである。呼んだ側が接続を閉じて
task を待つとき、task がどの待ちにいても、使っている接続は閉じていて、task は network を待たずに終われる。
戻った後には、これまでに得た接続がすべて閉じており、task は mirror の行に二度と触れない。
-/
theorem shutdown_reaches_task (upstream : Υ) (mirror : Db) (now : Int) (acts : List Act) :
    let t := (spawn upstream mirror now).exec up prim own acts
    (t.control.site = .finished → t.control.flag = true) ∧
    (t.control.caller = .joining →
      (∀ conn, t.control.site = .session conn → conn ∈ t.control.closed) ∧
      (t.exec up prim own wayOut).control.site = .finished) ∧
    (t.control.caller = .done →
      (∀ conn < t.control.conns, conn ∈ t.control.closed) ∧
      ∀ later, (t.exec up prim own later).control = t.control ∧
        SameRows t.session.link.mirror (t.exec up prim own later).session.link.mirror) := by
  intro t
  have h : t.control.Sound := sound_exec upstream mirror now acts
  refine ⟨h.finished, fun hjoin => ⟨fun conn hs => ?_, ?_⟩,
    fun hdone => ⟨fun conn hc => ?_, fun later => ?_⟩⟩
  · -- 呼んだ側の手が届く接続は、置き場から取り出されて閉じている
    rcases h.reach conn (Or.inr hs) with hcl | hslot | htaken
    · exact hcl
    · exact (h.late (by simp [Control.Late, hjoin]) conn hslot).resolve_left (by simp [hs])
    · exact absurd (hjoin.symm.trans htaken) (by simp)
  · exact finished_wayOut h (h.flag.mpr (by simp [hjoin]))
  · have hsite := h.joined hdone
    rcases h.owned conn hc with hh | hcl | hslot | htaken
    · exact absurd hh (by simp [Control.Holds, hsite])
    · exact hcl
    · exact (h.late (by simp [Control.Late, hdone]) conn hslot).resolve_left (by simp [hsite])
    · exact absurd (hdone.symm.trans htaken) (by simp)
  · have hsite := h.joined hdone
    exact List.foldlRecOn (motive := fun u : SyncTask Υ => u.control = t.control ∧
        SameRows t.session.link.mirror u.session.link.mirror) later (step up prim own)
      ⟨rfl, .refl _⟩ fun u hu act _ => by
        have hu' := @step_done Υ up prim own u (hu.1 ▸ hsite) (hu.1 ▸ hdone) act
        exact ⟨hu'.1.trans hu.1, hu.2.trans hu'.2⟩

end SyncTask

end Replica

end SecretBunker
