import SecretBunker.Server.Secrets
import SecretBunker.Server.Sync

/-!
# 同期の stream に渡る読み取り

権威 node を、client の要求と同期の stream が好きな順に動かす。stream の認可と、それが
支える読み取りは別々の lock の中にあるので、間に取り消しが挟まりうる。
`FetchGroup` だけは同じ lock の中で両方を行う。
-/

namespace SecretBunker

open Relational Store SyncServer

/-- stream の、store への触れ方。`store` はそのときの database である。 -/
inductive Access where
  /-- 範囲または group の認可。 -/
  | check (stream : Nat) (remote : String) (store : Db)
  /-- group についての読み取りで、結果が peer に送られたもの。 -/
  | ship (stream : Nat) (remote : String) (request : SyncRequest) (group : String) (groupId : Nat)
      (store : Db) (sent : List SyncMessage)

/-- 権威 node と、開いている stream。`trace` は stream が store に触れた記録である。 -/
structure Hub where
  db : Db
  streams : List Stream
  trace : List Access

namespace Hub

/-- server の受ける出来事。 -/
inductive Act where
  | client (amb : Ambient) (remote : String) (req : Request)
  | accept (remote : String) (request : SyncRequest)
  | stream (index : Nat) (now : Int) (trigger : Trigger)

/-- `sent` を送った stream の一歩が、store にどう触れたか。 -/
def accesses (index : Nat) (s : Stream) (trigger : Trigger) (db : Db) (sent : List SyncMessage) :
    List Access :=
  match s.task, trigger with
  | .opened, .proceed =>
    match s.request with
    | .hello => []
    | .fetchGroup group => .check index s.remote db ::
      match syncReadAuthorized db s.remote group with
      | some groupId => [.ship index s.remote s.request group groupId db sent]
      | none => []
    | .fetchSecrets _ _ => [.check index s.remote db]
  | .subscribed, .proceed => [.check index s.remote db]
  | .manifest _ ((groupId, name) :: _), .proceed =>
    [.ship index s.remote s.request name groupId db sent]
  | .rows groupId group (_ :: _), .proceed =>
    if sent.isEmpty then [] else [.ship index s.remote s.request group groupId db sent]
  | _, _ => []

variable (prim : Primitives) (inner : Inner)

/-- 出来事一つ。 -/
def step (h : Hub) : Act → Hub
  | .client amb remote req =>
    let handled := Bunker.handle prim inner amb h.db remote req
    { h with db := handled.db, streams := h.streams.map (Stream.publish handled.published) }
  | .accept remote request => { h with streams := h.streams ++ [SyncServer.accept remote request] }
  | .stream index now trigger =>
    match h.streams[index]? with
    | none => h
    | some s =>
      match s.step prim now trigger h.db with
      | none => h
      | some (s', sent, db) =>
        { db, streams := h.streams.set index s',
          trace := h.trace ++ accesses index s trigger h.db sent }

/-- 要求と stream の歩みを順に行う。 -/
def run (h : Hub) (acts : List Act) : Hub := acts.foldl (step prim inner) h

/-- まだ stream の無い権威 node。 -/
def start (db : Db) : Hub := ⟨db, [], []⟩

end Hub

variable {prim : Primitives} {inner : Inner} {db db' : Db}
  {remote group : String} {gid index : Nat} {trace : List Access} {s : Stream}

theorem holdsRead_of_authorized (h : syncReadAuthorized db remote group = some gid) :
    groupId db group = some gid ∧ HoldsRead db remote gid := by
  obtain ⟨hg, i, hi, he, hb⟩ := syncReadAuthorized_eq_some.mp h
  exact ⟨hg, holdsRead_iff.mpr ⟨i, hi, he, hb⟩⟩

/-! ## 記録の正しさ -/

/-- 先立つ記録 `before` の中に、同じ stream の認可がある。 -/
def Checked (before : List Access) (index : Nat) (remote group : String) (gid : Nat) : Prop :=
  ∃ store₀, .check index remote store₀ ∈ before ∧ groupId store₀ group = some gid ∧
    HoldsRead store₀ remote gid

/-- 自分宛ての wrap を運ばない。 -/
def NoWraps (sent : List SyncMessage) : Prop :=
  ∀ name acl deks, .group name acl deks ∈ sent → deks = []

/-- 送られた読み取りは認可に続き、READ を失った後なら wrap を運ばない。 -/
def Justified (before : List Access) : Access → Prop
  | .check _ _ _ => True
  | .ship index remote request group gid store sent =>
    Checked before index remote group gid ∧
      ((∃ g, request = .fetchGroup g) → HoldsRead store remote gid) ∧
      (¬ HoldsRead store remote gid → NoWraps sent)

/-- どの読み取りも、その時点までの出来事で正当である。 -/
def AllJustified (trace : List Access) : Prop :=
  ∀ before a later, trace = before ++ a :: later → Justified before a

theorem AllJustified.snoc {a : Access} (h : AllJustified trace) (ha : Justified trace a) :
    AllJustified (trace ++ [a]) := by
  intro before b later he
  rcases List.eq_nil_or_concat later with rfl | ⟨later', c, rfl⟩
  · obtain ⟨rfl, hab⟩ := List.append_inj' he rfl
    cases hab
    exact ha
  · rw [List.concat_eq_append, ← List.cons_append, ← List.append_assoc] at he
    exact h before b later' (List.append_inj' he rfl).1

/-- stream の task が、これまでの記録に支えられている。 -/
def Supported (trace : List Access) (index : Nat) (s : Stream) : Prop :=
  match s.task with
  | .subscribed => s.request = .hello
  | .manifest _ todo => s.request = .hello ∧ s.remote.length = 64 ∧
      ∀ x ∈ todo, Checked trace index s.remote x.2 x.1
  | .rows gid group _ => (∃ g names, s.request = .fetchSecrets g names) ∧
      Checked trace index s.remote group gid
  | _ => True

theorem Checked.mono {before : List Access} (h : Checked before index remote group gid)
    (later : List Access) : Checked (before ++ later) index remote group gid := by
  obtain ⟨store₀, hc, hrest⟩ := h
  exact ⟨store₀, List.mem_append_left _ hc, hrest⟩

theorem Supported.mono (h : Supported trace index s) (later : List Access) :
    Supported (trace ++ later) index s := by
  unfold Supported at h ⊢
  split
  · next ht => rw [ht] at h; exact h
  · next ht => rw [ht] at h; exact ⟨h.1, h.2.1, fun x hx => (h.2.2 x hx).mono later⟩
  · next ht => rw [ht] at h; exact ⟨h.1, h.2.mono later⟩
  · trivial

/-- 歩みの間ずっと成り立つこと。 -/
structure Hub.Inv (prim : Primitives) (inner : Inner) (h : Hub) : Prop where
  consistent : Consistent prim h.db
  opened : inner.Matches prim h.db
  justified : AllJustified h.trace
  supported : ∀ index s, h.streams[index]? = some s → Supported h.trace index s

/-! ## 一歩 -/

theorem Inner.Matches.of_turn (h : inner.Matches prim db) (ht : Turn prim db db') :
    inner.Matches prim db' :=
  ⟨h.identity, (ht.recipients _).trans h.operational, (ht.recipients _).trans h.backup⟩

/-- audit を足しただけの database。 -/
theorem Consistent.audit (h : Consistent prim db) (log : List AuditRow) :
    Consistent prim (db.withAudit log) :=
  ⟨⟨h.keys.1, h.keys.2, h.keys.3, h.keys.4, h.keys.5⟩, ⟨h.secrets.1, h.secrets.2, h.secrets.3⟩⟩

theorem Inner.Matches.audit (h : inner.Matches prim db) (log : List AuditRow) :
    inner.Matches prim (db.withAudit log) := h.of_meta rfl

/-- READ を持たない peer への snapshot に wrap は無い。 -/
theorem noWraps_snapshot (hk : KeyWrap prim db) (hlen : remote.length = 64)
    (hread : ¬ HoldsRead db remote gid) :
    NoWraps (Sync.groupMessages (snapshotGroup db gid group remote)) := by
  intro name acl deks hm
  rcases List.mem_cons.mp hm with he | hm
  · cases he
    refine List.filterMap_eq_nil_iff.mpr fun v _ => ?_
    rw [Option.map_eq_none_iff, Option.eq_none_iff_forall_not_mem]
    intro b hb
    exact hk.not_wrapped_of_absent hlen hread (dekWrap_eq_some.mp hb)
  · obtain ⟨_, _, he⟩ := List.mem_map.mp hm
    cases he

theorem noWraps_secretMessage (gid : Nat) (name : String) : NoWraps (secretMessage db gid name) := by
  intro n acl deks hm
  obtain ⟨row, -, he⟩ := Option.map_eq_some_iff.mp (Option.mem_toList.mp hm)
  cases he

theorem length_of_endpoint (hk : KeyWrap prim db) {i : Identity}
    (h : identityByEndpoint db remote = some i) : remote.length = 64 := by
  obtain ⟨hi, rfl⟩ := identityByEndpoint_eq_some.mp h
  exact hk.endpoints i hi

theorem checked_of_authorized (h : syncReadAuthorized db remote group = some gid)
    (hm : .check index remote db ∈ trace) : Checked trace index remote group gid :=
  ⟨db, hm, holdsRead_of_authorized h⟩

/-- 開いたばかりの stream の一歩。送るか送り始めるのは、その場で確かめた後である。 -/
theorem justified_opened {s' : Stream} {now : Int} {sent : List SyncMessage}
    (hj : AllJustified trace) (hopened : s.task = .opened)
    (h : s.step prim now .proceed db = some (s', sent, db')) :
    (∃ log, db' = db.withAudit log) ∧
      AllJustified (trace ++ Hub.accesses index s .proceed db sent) ∧
      Supported (trace ++ Hub.accesses index s .proceed db sent) index s' := by
  obtain ⟨remote, request, task, events⟩ := s
  cases hopened
  have hcheck : AllJustified (trace ++ [.check index remote db]) := hj.snoc trivial
  have hmem : .check index remote db ∈ trace ++ [.check index remote db] :=
    List.mem_append_right _ (List.mem_singleton_self _)
  unfold Stream.step at h
  unfold Hub.accesses
  dsimp only at h ⊢
  cases request with
  | hello =>
    cases h
    rw [List.append_nil]
    exact ⟨⟨_, rfl⟩, hj, rfl⟩
  | fetchGroup group =>
    cases h
    refine ⟨⟨_, rfl⟩, ?_, trivial⟩
    dsimp only
    cases ha : syncReadAuthorized db remote group with
    | none => exact hcheck
    | some gid =>
      rw [← List.singleton_append, ← List.append_assoc]
      have hread := (holdsRead_of_authorized ha).2
      exact hcheck.snoc ⟨checked_of_authorized ha hmem, fun _ => hread, fun hn => absurd hread hn⟩
  | fetchSecrets group names =>
    dsimp only at h ⊢
    split at h
    · next gid db₁ ha =>
      cases h
      obtain ⟨hauth, rfl⟩ := Prod.mk.inj ha
      exact ⟨⟨_, rfl⟩, hcheck, ⟨group, names, rfl⟩, checked_of_authorized hauth hmem⟩
    · next db₁ ha =>
      cases h
      obtain ⟨-, rfl⟩ := Prod.mk.inj ha
      exact ⟨⟨_, rfl⟩, hcheck, trivial⟩

/-- stream の一歩は記録の正しさを保ち、database は audit のほか変えない。 -/
theorem justified_streamStep (hc : Consistent prim db) {s' : Stream} {now : Int}
    {trigger : Trigger} {sent : List SyncMessage} (hj : AllJustified trace)
    (hs : Supported trace index s) (h : s.step prim now trigger db = some (s', sent, db')) :
    (∃ log, db' = db.withAudit log) ∧
      AllJustified (trace ++ Hub.accesses index s trigger db sent) ∧
      Supported (trace ++ Hub.accesses index s trigger db sent) index s' := by
  -- store に触れない歩みでは、記録は伸びない
  have hquiet : ∀ {s' : Stream}, Supported trace index s' →
      (∃ log, db = db.withAudit log) ∧ AllJustified (trace ++ []) ∧ Supported (trace ++ []) index s' := by
    intro s' hs'
    rw [List.append_nil]
    exact ⟨⟨_, rfl⟩, hj, hs'⟩
  by_cases hopened : s.task = .opened ∧ trigger = .proceed
  · obtain ⟨hopened, rfl⟩ := hopened
    exact justified_opened hj hopened h
  obtain ⟨remote, request, task, events⟩ := s
  unfold Stream.step at h
  unfold Supported at hs
  unfold Hub.accesses
  dsimp only at h hs ⊢
  split at h
  · exact absurd ⟨rfl, rfl⟩ hopened
  · have hmem : .check index remote db ∈ trace ++ [.check index remote db] :=
      List.mem_append_right _ (List.mem_singleton_self _)
    split at h
    · next scope db₁ ha =>
      cases h
      obtain ⟨hscope, rfl⟩ := Prod.mk.inj ha
      obtain ⟨i, hi, -⟩ := Option.map_eq_some_iff.mp hscope
      refine ⟨⟨_, rfl⟩, hj.snoc trivial, hs, length_of_endpoint hc.keys hi, fun x hx => ?_⟩
      exact checked_of_authorized ((mem_scopeOf hscope).mp hx) hmem
    · next db₁ ha =>
      cases h
      obtain ⟨-, rfl⟩ := Prod.mk.inj ha
      exact ⟨⟨_, rfl⟩, hj.snoc trivial, trivial⟩
  · next gid name todo =>
    cases h
    obtain ⟨rfl, hlen, htodo⟩ := hs
    refine ⟨⟨_, rfl⟩, hj.snoc ⟨htodo _ List.mem_cons_self, ?_, noWraps_snapshot hc.keys hlen⟩, rfl,
      hlen, fun x hx => (htodo x (List.mem_cons_of_mem _ hx)).mono _⟩
    rintro ⟨g, hg⟩
    cases hg
  · cases h
    exact hquiet trivial
  · obtain ⟨⟨got, r⟩, -, h⟩ := Option.map_eq_some_iff.mp h
    cases h
    exact hquiet trivial
  · obtain ⟨⟨got, r⟩, -, h⟩ := Option.map_eq_some_iff.mp h
    cases h
    exact hquiet trivial
  · cases h
    exact hquiet trivial
  · next gid group name names =>
    cases h
    obtain ⟨⟨g, ns, rfl⟩, hchecked⟩ := hs
    have hship : AllJustified (trace ++ [.ship index remote (.fetchSecrets g ns) group gid db
        (secretMessage db gid name)]) := by
      refine hj.snoc ⟨hchecked, ?_, fun _ => noWraps_secretMessage gid name⟩
      rintro ⟨g', hg⟩
      cases hg
    refine ⟨⟨_, rfl⟩, ?_, ⟨g, ns, rfl⟩, hchecked.mono _⟩
    dsimp only
    split
    · rw [List.append_nil]
      exact hj
    · exact hship
  · cases h
    exact hquiet trivial
  · cases h

/-- 届いた event は task の居場所を変えない。 -/
theorem Supported.publish (h : Supported trace index s) (groups : List String) :
    Supported trace index (s.publish groups) := h

/-- どの一歩も、出した行の正当さを保つ。 -/
theorem Hub.Inv.step (laws : prim.Lawful) {h : Hub} (hi : h.Inv prim inner) (act : Hub.Act) :
    (h.step prim inner act).Inv prim inner := by
  cases act with
  | client amb remote req =>
    refine ⟨consistent_handle laws hi.consistent hi.opened remote req,
      hi.opened.of_turn (turn_handle laws hi.consistent.keys.endpoints hi.opened remote req),
      hi.justified, fun index s hs => ?_⟩
    obtain ⟨s₀, hs₀, rfl⟩ := Option.map_eq_some_iff.mp ((List.getElem?_map ..).symm.trans hs)
    exact (hi.supported index s₀ hs₀).publish _
  | accept remote request =>
    refine ⟨hi.consistent, hi.opened, hi.justified, fun index s hs => ?_⟩
    by_cases hlt : index < h.streams.length
    · exact hi.supported index s ((List.getElem?_append_left hlt).symm.trans hs)
    · rw [show (h.step prim inner (.accept remote request)).streams =
        h.streams ++ [SyncServer.accept remote request] from rfl,
        List.getElem?_append_right (Nat.le_of_not_lt hlt)] at hs
      obtain rfl := List.mem_singleton.mp (List.mem_of_getElem? hs)
      trivial
  | stream index now trigger =>
    unfold Hub.step
    dsimp only
    split
    · exact hi
    · next s hs =>
      split
      · exact hi
      · next s' sent db' hstep =>
        obtain ⟨⟨log, rfl⟩, hj, hsup⟩ :=
          justified_streamStep hi.consistent hi.justified (hi.supported index s hs) hstep
        refine ⟨hi.consistent.audit log, hi.opened.audit log, hj, fun k t ht => ?_⟩
        rw [List.getElem?_set] at ht
        split at ht
        · next hk =>
          split at ht
          · cases ht
            rw [← hk]
            exact hsup
          · cases ht
        · exact (hi.supported k t ht).mono _

theorem Hub.Inv.run (laws : prim.Lawful) {h : Hub} (hi : h.Inv prim inner) (acts : List Hub.Act) :
    (h.run prim inner acts).Inv prim inner := by
  induction acts generalizing h with
  | nil => exact hi
  | cons act rest ih => exact ih (hi.step laws act)

theorem Hub.Inv.start (hc : Consistent prim db) (hm : inner.Matches prim db) :
    (Hub.start db).Inv prim inner where
  consistent := hc
  opened := hm
  justified := by
    intro before a later he
    exact absurd he (by simp [Hub.start])
  supported := by
    intro index s hs
    cases hs

/-! ## 主定理 -/

/--
**同期の stream が peer に渡す読み取りには、同じ stream の認可が先立つ。**

要求と stream がどう交わっても、group についての読み取りが送られるのは、その stream が
先に読んだ database で peer の identity が登録されて明示的な READ を持っていたときだけである。
したがって取り消しの後に認可を受けた stream は、その group の何も送らない。
`FetchGroup` の読み取りは、送られる database そのものでも READ がある。
認可の後に READ が失われた snapshot には、peer の wrap は一つも入らない。
-/
theorem shipped_after_check (laws : prim.Lawful) {op backup endpoint admin : String} {db₀ : Db}
    (hlen : endpoint.length = 64) (hinit : Node.init op backup endpoint admin = some db₀)
    (ops : List (Node.Op × Ambient)) {key : AgeIdentity}
    (hopen : Bunker.new prim (Node.exec prim db₀ ops) key = some inner) (acts : List Hub.Act)
    {before later : List Access} {index gid : Nat} {remote group : String} {request : SyncRequest}
    {store : Db} {sent : List SyncMessage}
    (htrace : ((Hub.start (Node.exec prim db₀ ops)).run prim inner acts).trace =
      before ++ .ship index remote request group gid store sent :: later) :
    (∃ store₀, .check index remote store₀ ∈ before ∧ groupId store₀ group = some gid ∧
      HoldsRead store₀ remote gid) ∧
    ((∃ g, request = .fetchGroup g) → HoldsRead store remote gid) ∧
    (¬ HoldsRead store remote gid →
      ∀ name acl deks, .group name acl deks ∈ sent → deks = []) := by
  have hc := consistent_exec laws (consistent_init hlen hinit) ops
  have hi := Hub.Inv.start hc (matches_of_new laws hopen).1
  exact (hi.run laws acts).justified _ _ _ htrace

/-- READ を持つ reader の Hello と FetchSecrets が認可を受けてから、取り消しと Put が挟まる。 -/
def sampleRace : List Hub.Act :=
  [.accept (samplePeer 'b') .hello, .stream 0 0 .proceed, .stream 0 0 .proceed,
    .accept (samplePeer 'b') (.fetchSecrets "g" ["n"]), .stream 1 0 .proceed,
    .client (sampleAmbient 8) (samplePeer 'a') (.grant "g" "bob" 0),
    .client (sampleAmbient 9) (samplePeer 'a') (.put "g" "n" [7] 0),
    .stream 0 0 .proceed, .stream 1 0 .proceed]

/-- 競り合った後の server。 -/
def sampleRaced : Hub :=
  (Hub.start (Node.exec plain sampleDb sampleGranted)).run plain sampleInner sampleRace

theorem shipped_after_check_sample :
    ∃ before later store sent,
      sampleRaced.trace =
        before ++ .ship 1 (samplePeer 'b') (.fetchSecrets "g" ["n"]) "g" 1 store sent :: later ∧
      ∃ store₀, .check 1 (samplePeer 'b') store₀ ∈ before ∧ groupId store₀ "g" = some 1 ∧
        HoldsRead store₀ (samplePeer 'b') 1 :=
  ⟨_, _, _, _, rfl, (shipped_after_check plain_lawful (by decide) init_sampleDb sampleGranted
    (show Bunker.new plain _ ⟨"o"⟩ = some sampleInner by decide) sampleRace rfl).1⟩

/-- 読み取りのときに READ の無かった peer に送られたもの。 -/
def Access.late : Access → Option (SyncRequest × List SyncMessage)
  | .ship _ remote request _ gid store sent =>
    if HoldsRead store remote gid then none else some (request, sent)
  | .check _ _ _ => none

/--
**認可の後に取り消されても、stream は読み取りを送る。** 取り消しの後の Put が、Hello の一覧にも
FetchSecrets の行にも現れる。どちらも新しい DEK で書かれ、peer への wrap は添えられない。
-/
theorem late_reads_shipped :
    sampleRaced.trace.filterMap Access.late =
      [(.hello, [.group "g" [⟨"admin", samplePeer 'a', 7⟩] [],
        .groupSecrets "g" [⟨"n", 1, 2, (sampleAmbient 9).nonce.1⟩]]),
        (.fetchSecrets "g" ["n"],
          [.secretData ⟨⟨1, 2, (sampleAmbient 9).nonce.1, [7], 0, "admin"⟩, "n"⟩])] := by
  decide

end SecretBunker
