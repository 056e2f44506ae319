import SecretBunker.Replica.Engine

/-!
# replica の同期の task

`src/replica.rs` の `run_sync`、`run_connection`、`run_session`。task は接続し、manifest を貯め、
揃ったら `full_resync` を、その後は `Changed` のたびに `sync_group_via_fetch` を走らせる。

stream の読み取りで失敗すれば接続し直す。手続きの途中で失敗するのは取り寄せの stream と、
反映の transaction だけで、それは手続き自身の失敗として現れる。
backoff の長さと log は状態に残らないので扱わない。
-/

namespace SecretBunker

open Interleaving

namespace Replica

variable {Υ : Type}

/-- task が走らせる手続き。 -/
inductive Job where
  | resync (stash : List GroupSyncState)
  | group (name : String)

/-- task の居場所。 -/
inductive Phase (Υ : Type) where
  /-- 接続を待っている。 -/
  | down
  /-- `ManifestDone` までの状態を貯めている。 -/
  | manifest (helloOk : Bool) (stash : List GroupSyncState)
  /-- 手続きの残りを走らせている。 -/
  | working (job : Job) (rest : Prog (Link Υ) Unit)
  /-- 手続きを終えて、知らせを待っている。 -/
  | live (done : Job)
  | stopped

structure Session (Υ : Type) where
  link : Link Υ
  phase : Phase Υ

/-- task の一歩と、間に起きること。 -/
inductive Act where
  | connect
  | receive (message : SyncMessage)
  /-- 手続きの動作を一つ行う。 -/
  | advance
  /-- stream か接続が失敗する。 -/
  | lose
  | shutdown
  | tick (now : Int)
  /-- 読み手に答える。mirror に足されるのは audit の行だけである。 -/
  | serve (log : List AuditRow)

def disconnect (l : Link Υ) : Session Υ := ⟨setDisconnected l, .down⟩

variable (up : Upstream Υ) (prim : Primitives) (own : String)

def Job.task : Job → Prog (Link Υ) Unit
  | .resync stash => fullResync up prim own stash
  | .group name => syncGroupViaFetch up prim own name

def start (l : Link Υ) (job : Job) : Session Υ := ⟨l, .working job (job.task up prim own)⟩

/-- manifest の message。最初の一つが拒否でなければ、つながったとみなす。 -/
def receiveManifest (helloOk : Bool) (stash : List GroupSyncState) (l : Link Υ)
    (message : SyncMessage) : Session Υ :=
  if helloOk = false ∧ message = .syncDenied then disconnect l
  else
    let l := if helloOk then l else setConnected l
    match message with
    | .manifestDone => start up prim own l (.resync stash)
    | message =>
      match Sync.merge stash message with
      | some stash => ⟨l, .manifest true stash⟩
      | none => disconnect l

/-- 揃った後の知らせ。 -/
def receiveLive (l : Link Υ) : SyncMessage → Session Υ
  | .changed group => start up prim own l (.group group)
  | .scopeChanged => ⟨l, .manifest false []⟩
  | _ => disconnect l

namespace Session

def receive (s : Session Υ) (message : SyncMessage) : Session Υ :=
  match s.phase with
  | .manifest helloOk stash => receiveManifest up prim own helloOk stash s.link message
  | .live _ => receiveLive up prim own s.link message
  | _ => s

def advance (s : Session Υ) : Session Υ :=
  match s.phase with
  | .working job (.act update next) => ⟨update s.link, .working job (next s.link)⟩
  | .working job (.ret _) => ⟨s.link, .live job⟩
  | .working _ .fail => disconnect s.link
  | _ => s

def step (s : Session Υ) : Act → Session Υ
  | .connect =>
    match s.phase with
    | .down => ⟨s.link, .manifest false []⟩
    | _ => s
  | .receive message => s.receive up prim own message
  | .advance => s.advance
  | .lose =>
    match s.phase with
    | .working .. | .stopped => s
    | _ => disconnect s.link
  | .shutdown =>
    match s.phase with
    | .working .. => s
    | _ => ⟨s.link, .stopped⟩
  | .tick now => { s with link := { s.link with now } }
  | .serve log => { s with link := { s.link with mirror := s.link.mirror.withAudit log } }

def exec (s : Session Υ) (acts : List Act) : Session Υ := acts.foldl (step up prim own) s

/-! ## 一歩ですること -/

/-- 読み手と時計の動き。 -/
def Idle (l l' : Link Υ) : Prop :=
  ∃ log now, l' = { l with mirror := l.mirror.withAudit log, now }

/-- 一歩の場合分け。 -/
inductive Moves : Session Υ → Session Υ → Prop
  | idle {l l' : Link Υ} {phase : Phase Υ} (h : Idle l l') : Moves ⟨l, phase⟩ ⟨l', phase⟩
  | opened {l : Link Υ} {phase : Phase Υ} (h : phase = .down ∨ ∃ job, phase = .live job) :
      Moves ⟨l, phase⟩ ⟨l, .manifest false []⟩
  | greeted {l : Link Υ} {ok : Bool} {stash stash' : List GroupSyncState} {message : SyncMessage}
      (h : Sync.merge stash message = some stash') :
      Moves ⟨l, .manifest ok stash⟩ ⟨if ok then l else setConnected l, .manifest true stash'⟩
  | listed {l : Link Υ} {ok : Bool} {stash : List GroupSyncState} :
      Moves ⟨l, .manifest ok stash⟩
        (start up prim own (if ok then l else setConnected l) (.resync stash))
  | pushed {l : Link Υ} {job : Job} {group : String} :
      Moves ⟨l, .live job⟩ (start up prim own l (.group group))
  | acted {l : Link Υ} {job : Job} {update : Link Υ → Link Υ} {next : Link Υ → Prog (Link Υ) Unit} :
      Moves ⟨l, .working job (.act update next)⟩ ⟨update l, .working job (next l)⟩
  | finished {l : Link Υ} {job : Job} : Moves ⟨l, .working job (.ret ())⟩ ⟨l, .live job⟩
  | failed {l : Link Υ} {job : Job} : Moves ⟨l, .working job .fail⟩ (disconnect l)
  | lost {l l' : Link Υ} {phase : Phase Υ} (hw : ∀ job p, phase ≠ .working job p)
      (hl : l' = l ∨ l' = setConnected l) : Moves ⟨l, phase⟩ (disconnect l')
  | halted {l : Link Υ} {phase : Phase Υ} (hw : ∀ job p, phase ≠ .working job p) :
      Moves ⟨l, phase⟩ ⟨l, .stopped⟩

variable {up prim own}

theorem Idle.refl (l : Link Υ) : Idle l l := ⟨l.mirror.auditLog, l.now, rfl⟩

theorem moves_receiveManifest (ok : Bool) (stash : List GroupSyncState) (l : Link Υ)
    (message : SyncMessage) :
    Moves up prim own ⟨l, .manifest ok stash⟩
      (receiveManifest up prim own ok stash l message) := by
  unfold receiveManifest
  split
  · exact .lost (fun _ _ h => nomatch h) (Or.inl rfl)
  · dsimp only
    split
    · exact .listed
    · split
      · next h => exact .greeted h
      · refine .lost (fun _ _ h => nomatch h) ?_
        cases ok with
        | true => exact Or.inl rfl
        | false => exact Or.inr rfl

/-- どの act も、`Moves` のどれかである。 -/
theorem moves_step (s : Session Υ) (a : Act) : Moves up prim own s (s.step up prim own a) := by
  have hidle : Moves up prim own s s := .idle (Idle.refl s.link)
  obtain ⟨l, phase⟩ := s
  cases a with
  | tick now => exact .idle ⟨_, now, rfl⟩
  | serve log => exact .idle ⟨log, _, rfl⟩
  | connect =>
    cases phase with
    | down => exact .opened (Or.inl rfl)
    | _ => exact hidle
  | receive message =>
    cases phase with
    | manifest ok stash => exact moves_receiveManifest ok stash l message
    | live job =>
      show Moves up prim own _ (receiveLive up prim own l message)
      unfold receiveLive
      split
      · exact .pushed
      · exact .opened (Or.inr ⟨job, rfl⟩)
      · exact .lost (fun _ _ h => nomatch h) (Or.inl rfl)
    | _ => exact hidle
  | advance =>
    cases phase with
    | working job rest =>
      cases rest with
      | ret a => exact .finished
      | fail => exact .failed
      | act update next => exact .acted
    | _ => exact hidle
  | lose =>
    cases phase with
    | working => exact hidle
    | stopped => exact hidle
    | _ => exact .lost (fun _ _ h => nomatch h) (Or.inl rfl)
  | shutdown =>
    cases phase with
    | working => exact hidle
    | _ => exact .halted fun _ _ h => nomatch h

/-- 一歩ごとに保たれる性質は、どの実行でも保たれる。 -/
theorem exec_induction {P : Session Υ → Prop}
    (hstep : ∀ s s', Moves up prim own s s' → P s → P s') {s : Session Υ} (h : P s)
    (acts : List Act) : P (s.exec up prim own acts) := by
  unfold exec
  induction acts generalizing s with
  | nil => exact h
  | cons a rest ih => exact ih (hstep s _ (moves_step s a) h)

end Session

end Replica

end SecretBunker
