import Mathlib.Data.List.Induction
import SecretBunker.Replica.Outline
import SecretBunker.Replica.Session

/-!
# 最初の同期の合図

`last_synced` は最初の同期を終えた合図として読まれるが、立てる場所は二つある。`full_resync` の終わりと、
その中で group を一つ写すたびである。manifest の group が一つまでなら、合図が立つときには
manifest のすべてが写っている（`waiting_or_synced`）。二つ以上なら、最初の一つを写した時に立ってしまう。
-/

namespace SecretBunker

open Interleaving Relational Store

namespace Replica

variable {prim : Primitives} {own : String} {l : Link Replies}

/-! ## 合図の立つまで -/

/-- mirror は名前の列の group をすべて持つ。 -/
def Held (names : List String) (mirror : Db) : Prop := ∀ n ∈ names, groupId mirror n ≠ none

/-- 合図の立つまでの世界。立ったときに `names` がすべて写っていれば、その先は問わない。 -/
def awaiting (names : List String) :
    Setting (Link Replies) (Link Replies) where
  view := id
  put := fun _ l => l
  put_view := fun _ => rfl
  inv := fun l => l.lastSynced = none
  rely := fun l l' => l'.lastSynced = l.lastSynced ∧ SameRows l.mirror l'.mirror
  refl := fun _ => ⟨rfl, .refl _⟩
  trans := fun h h' => ⟨h'.1.trans h.1, h.2.trans h'.2⟩
  mayFail := True
  escape := fun l => l.lastSynced ≠ none ∧ Held names l.mirror

variable {names : List String}

theorem waits_of_keeps {α : Type} {p : Prog (Link Replies) α}
    (h : p.Keeps (·.lastSynced)) (l : Link Replies) :
    (awaiting names).Safe (fun _ _ => True) p l := by
  induction p generalizing l with
  | ret a => exact fun _ _ _ => trivial
  | fail => trivial
  | act update next ih => exact fun v _ hi => Or.inr ⟨(h.1 v).trans hi, ih v (h.2 v) _⟩

theorem stableAt_holding : (awaiting names).StableAt fun l => Held names l.mirror := by
  rintro l l' ⟨-, log, hm⟩ h
  rw [hm]
  exact h

theorem keeps_reply : (Prog.attempt fun l : Link Replies =>
    l.upstream.head?.map fun reply => (reply, { l with upstream := l.upstream.tail })).Keeps
      (·.lastSynced) := by
  refine Prog.Obeys.attempt (fun _ => rfl) fun l reply l' h => ?_
  obtain ⟨r, -, he⟩ := Option.map_eq_some_iff.mp h
  cases he
  rfl

theorem keeps_fetchNeeded (group : String) (names : List String) :
    (fetchNeeded scripted group names).Keeps (·.lastSynced) := by
  unfold fetchNeeded
  split
  · trivial
  · exact keeps_reply.bind fun _ => .orFail _

theorem keeps_dropGroup (name : String) :
    (dropGroup name : Prog (Link Replies) Unit).Keeps (·.lastSynced) := by
  refine Prog.Obeys.bind (.atomic fun _ => rfl) fun dropped => ?_
  cases dropped with
  | true => exact .atomic fun _ => rfl
  | false => trivial

theorem keeps_dropGroupAndGc (name : String) :
    (dropGroupAndGc name : Prog (Link Replies) Unit).Keeps (·.lastSynced) :=
  (keeps_dropGroup name).bind fun _ => .atomic fun _ => rfl

/-- 状態を写せば合図が立つので、続きがあるのは拒まれたときだけである。 -/
theorem waits_applyGroupState {state : GroupSyncState} (hn : names = [state.name])
    (h : l.lastSynced = none) :
    (awaiting names).Safe (fun o _ => o = .denied) (applyGroupState scripted prim own state) l := by
  refine Setting.Safe.bind h (waits_of_keeps (.atomic fun _ => rfl) l) fun needed l h _ => ?_
  refine Setting.Safe.bind h (waits_of_keeps (keeps_fetchNeeded _ _) l) fun r l h _ => ?_
  cases r with
  | none => exact Setting.Safe.ret (fun _ _ _ h => h) rfl
  | some fetched =>
    refine Setting.Safe.bind h (show (awaiting names).Safe (fun _ l => Held names l.mirror) _ l
      from ?_) fun changes l h hheld => ?_
    · refine Setting.Safe.attempt (fun _ => stableAt_holding) (fun _ _ _ _ => trivial) ?_
      intro v changes u hv hi hu
      obtain ⟨hheld, hlast⟩ := held_of_commit hu
      refine ⟨hlast.trans hi, ?_⟩
      rw [hn]
      intro n hmem
      rw [List.mem_singleton.mp hmem]
      exact hheld
    · refine Setting.Safe.bind h (show (awaiting names).Safe (fun _ l => Held names l.mirror) _ l
        from ?_) fun _ l h hheld => ?_
      · refine Setting.Safe.forM (fun _ => stableAt_holding) (fun e rest w _ hw => ?_) h hheld
        exact Setting.Safe.atomic (fun _ => stableAt_holding) fun v hv hi =>
          ⟨hi, stableAt_holding _ _ hv hw⟩
      · refine Setting.Safe.bind h (show (awaiting names).Safe (fun _ _ => False) _ l from
          Setting.Safe.leave fun v hv hi => ?_) fun _ _ _ hf => hf.elim
        exact ⟨Option.some_ne_none _, (stableAt_holding _ v hv hheld : Held names v.mirror)⟩

/-- 一つ目の group を揃える間は、待っている。 -/
theorem waits_syncOneGroup {state : GroupSyncState} (hn : names = [state.name])
    (h : l.lastSynced = none) :
    (awaiting names).Safe (fun _ _ => True) (syncOneGroup scripted prim own state) l := by
  refine Setting.Safe.bind h (waits_applyGroupState hn h) fun o l h ho => ?_
  rw [ho]
  exact waits_of_keeps (keeps_dropGroupAndGc state.name) l

/-- `full_resync` のうち、最後に合図を立てるまで。 -/
def resyncBody (prim : Primitives) (own : String) (stash : List GroupSyncState) :
    Prog (Link Replies) Unit := do
  stash.forM (syncOneGroup scripted prim own)
  let stale ← .read fun l => (replicaGroupNames l.mirror).filter fun name =>
    !(stash.any fun s => s.name == name)
  stale.forM dropGroup
  gcIdentities

/-- 全体の同期は、本体と最後の印である。 -/
theorem fullResync_eq (stash : List GroupSyncState) :
    fullResync scripted prim own stash =
      (resyncBody prim own stash).bind fun _ => touchLastSynced := by
  unfold resyncBody fullResync
  simp only [bind, Prog.bind_assoc]

theorem waits_resyncBody {stash : List GroupSyncState} (hone : stash.length ≤ 1)
    (h : l.lastSynced = none) :
    (awaiting (stash.map (·.name))).Safe (fun _ _ => True) (resyncBody prim own stash) l := by
  have hgroups : (awaiting (stash.map (·.name))).Safe (fun _ _ => True)
      (stash.forM (syncOneGroup scripted prim own)) l := by
    match stash, hone with
    | [], _ => exact Setting.Safe.ret (fun _ _ _ _ => trivial) trivial
    | [state], _ =>
      exact Setting.Safe.bind h (waits_syncOneGroup rfl h) fun _ l _ _ =>
        Setting.Safe.ret (fun _ _ _ _ => trivial) trivial
  refine Setting.Safe.bind h hgroups fun _ l h _ => ?_
  refine waits_of_keeps (Prog.Obeys.bind (.atomic fun _ => rfl) fun stale => ?_) l
  exact (Prog.Obeys.forM keeps_dropGroup stale).bind fun _ => .atomic fun _ => rfl

/-! ## 実行 -/

namespace Session

variable (prim own) in
/-- 実行の途中で一度は成り立った。 -/
def Was (l₀ : Link Replies) (acts : List Act)
    (P : Session Replies → Prop) : Prop :=
  ∃ earlier, earlier <+: acts ∧ P ((Session.mk l₀ .down).exec scripted prim own earlier)

/-- 手続きを終えた、または終わりの return だけを残している。 -/
def Completed (s : Session Replies) : Prop :=
  ∃ job, s.phase = .live job ∨ s.phase = .working job (.ret ())

/-- 揃った manifest を写している。 -/
def Resyncing (stash : List GroupSyncState) (s : Session Replies) : Prop :=
  ∃ rest, s.phase = .working (.resync stash) rest

variable (prim own) in
/-- 起動してから `full_resync` を一度終えたか、揃った manifest のどの group も一度は mirror に写った。 -/
def Synced (l₀ : Link Replies) (acts : List Act) : Prop :=
  Was prim own l₀ acts Completed ∨ ∃ stash, Was prim own l₀ acts (Resyncing stash) ∧
    ∀ state ∈ stash, Was prim own l₀ acts fun s => groupId s.link.mirror state.name ≠ none

variable {l₀ : Link Replies} {acts : List Act}

theorem Was.now {P : Session Replies → Prop}
    (h : P ((Session.mk l₀ .down).exec scripted prim own acts)) : Was prim own l₀ acts P :=
  ⟨acts, List.prefix_rfl, h⟩

theorem Was.snoc {P : Session Replies → Prop} (h : Was prim own l₀ acts P)
    (a : Act) : Was prim own l₀ (acts ++ [a]) P := by
  obtain ⟨earlier, hp, h⟩ := h
  exact ⟨earlier, hp.trans (List.prefix_append acts [a]), h⟩

theorem Synced.snoc (h : Synced prim own l₀ acts) (a : Act) : Synced prim own l₀ (acts ++ [a]) := by
  rcases h with h | ⟨stash, hs, hheld⟩
  · exact Or.inl (h.snoc a)
  · exact Or.inr ⟨stash, hs.snoc a, fun state hm => (hheld state hm).snoc a⟩

/-- 合図の立つ前の task。 -/
def Waiting (s : Session Replies) : Prop :=
  s.link.lastSynced = none ∧ match s.phase with
    | .working (.resync stash) rest => ∃ p : Prog (Link Replies) Unit,
        rest = p.bind (fun _ => touchLastSynced) ∧
          (awaiting (stash.map (·.name))).Safe (fun _ _ => True) p s.link
    | .working (.group _) _ => False
    | .live _ => False
    | _ => True

theorem lastSynced_setConnected (l : Link Replies) : (setConnected l).lastSynced = l.lastSynced := by
  unfold setConnected
  split <;> rfl

theorem lastSynced_setDisconnected (l : Link Replies) :
    (setDisconnected l).lastSynced = l.lastSynced := by
  unfold setDisconnected
  split <;> rfl

theorem waiting_disconnect {l : Link Replies} (h : l.lastSynced = none) :
    (disconnect l).Waiting := ⟨(lastSynced_setDisconnected l).trans h, trivial⟩

/-- 一歩の後も合図は立っていないか、立ったときには manifest が写り終わっている。 -/
theorem waiting_moves {s s' : Session Replies} (hm : Moves scripted prim own s s')
    (hone : ∀ stash, s'.Resyncing stash → s'.link.lastSynced = none → stash.length ≤ 1)
    (h : s.Waiting) :
    s'.Waiting ∨ s'.Completed ∨ ∃ stash, s.Resyncing stash ∧
      Held (stash.map (·.name)) s'.link.mirror := by
  cases hm with
  | @idle l l' phase hidle =>
    obtain ⟨log, now, rfl⟩ := hidle
    refine Or.inl ⟨h.1, ?_⟩
    cases phase with
    | working job rest =>
      cases job with
      | resync stash =>
        obtain ⟨-, p, hrest, hsafe⟩ := h
        exact ⟨p, hrest, hsafe.stable ⟨rfl, log, rfl⟩⟩
      | group name => exact h.2
    | _ => exact h.2
  | opened hphase =>
    rcases hphase with rfl | ⟨job, rfl⟩
    · exact Or.inl ⟨h.1, trivial⟩
    · exact h.2.elim
  | @greeted l ok stash stash' message hmerge =>
    refine Or.inl ⟨?_, trivial⟩
    cases ok with
    | true => exact h.1
    | false => exact (lastSynced_setConnected l).trans h.1
  | @listed l ok stash =>
    have hnone : (if ok then l else setConnected l).lastSynced = none := by
      cases ok with
      | true => exact h.1
      | false => exact (lastSynced_setConnected l).trans h.1
    refine Or.inl ⟨hnone, _, fullResync_eq stash, waits_resyncBody ?_ hnone⟩
    exact hone stash ⟨_, rfl⟩ hnone
  | pushed => exact h.2.elim
  | @acted l job update next =>
    cases job with
    | group name => exact h.2.elim
    | resync stash =>
      obtain ⟨hnone, p, hrest, hsafe⟩ := h
      cases p with
      | fail => cases hrest
      | ret a =>
        -- 残りは最後の合図だけである
        obtain ⟨-, rfl⟩ := Prog.act.inj hrest
        exact Or.inr (Or.inl ⟨_, Or.inr rfl⟩)
      | act update' next' =>
        obtain ⟨rfl, rfl⟩ := Prog.act.inj hrest
        rcases hsafe l ((awaiting _).refl l) hnone with hesc | ⟨hinv, hnext⟩
        · exact Or.inr (Or.inr ⟨stash, ⟨_, rfl⟩, hesc.2⟩)
        · exact Or.inl ⟨hinv, _, rfl, hnext⟩
  | @finished l job => exact Or.inr (Or.inl ⟨job, Or.inl rfl⟩)
  | @failed l job => exact Or.inl (waiting_disconnect h.1)
  | lost hw hl =>
    refine Or.inl (waiting_disconnect ?_)
    rcases hl with rfl | rfl
    · exact h.1
    · exact (lastSynced_setConnected _).trans h.1
  | halted hw => exact Or.inl ⟨h.1, trivial⟩

variable (prim own) in
/-- 合図の立っていない間に揃った manifest は、どれも group を高々一つ載せている。 -/
def AtMostOne (l₀ : Link Replies) (acts : List Act) : Prop :=
  ∀ earlier, earlier <+: acts → ∀ stash,
    Resyncing stash ((Session.mk l₀ .down).exec scripted prim own earlier) →
    ((Session.mk l₀ .down).exec scripted prim own earlier).link.lastSynced = none →
      stash.length ≤ 1

/-- 待っているか、もう同期しているかである。 -/
theorem waiting_or_synced (hfresh : l₀.lastSynced = none) (hone : AtMostOne prim own l₀ acts) :
    ((Session.mk l₀ .down).exec scripted prim own acts).Waiting ∨ Synced prim own l₀ acts := by
  induction acts using List.reverseRecOn with
  | nil => exact Or.inl ⟨hfresh, trivial⟩
  | append_singleton acts a ih =>
    rcases ih fun earlier hp => hone earlier (hp.trans (List.prefix_append acts [a])) with h | h
    · have hexec : (Session.mk l₀ .down).exec scripted prim own (acts ++ [a]) =
          ((Session.mk l₀ .down).exec scripted prim own acts).step scripted prim own a := by
        unfold exec
        rw [List.foldl_append]
        rfl
      have hmoves := waiting_moves (moves_step _ a) (fun stash hs hl => hone _ List.prefix_rfl stash
        (by rw [hexec]; exact hs) (by rw [hexec]; exact hl)) h
      rw [← hexec] at hmoves
      rcases hmoves with hw | hc | ⟨stash, hs, hheld⟩
      · exact Or.inl hw
      · exact Or.inr (Or.inl (Was.now hc))
      · refine Or.inr (Or.inr ⟨stash, (Was.now hs).snoc a, fun state hm => Was.now ?_⟩)
        exact hheld state.name (List.mem_map_of_mem hm)
    · exact Or.inr (h.snoc a)

end Session

end Replica

end SecretBunker
