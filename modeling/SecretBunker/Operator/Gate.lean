import Mathlib.Data.List.Infix
import SecretBunker.Operator.Diagnosis
import SecretBunker.Replica.Initial

/-!
# 同期を待つ gate

operator は `last_synced` が立つまで CR を render しない。replica の側でこの合図が信じられるなら、
最初の manifest の group が欠けた mirror から render することも、診断することもない。
-/

namespace SecretBunker

open Interleaving Ordered Replica Replica.Session Store

namespace Operator

/-- 合図の立っていない replica を見た reconcile は、同期を待っていることだけを知らせる。 -/
theorem gate_closed (cfg : Config) (cr : BunkerSecret) {w : World} (h : w.lastSynced = none) :
    (applyBunkerSecret cfg cr).next w = awaitSync cr := by
  show (if w.lastSynced.isSome then _ else awaitSync cr : Prog World _) = awaitSync cr
  rw [h]
  rfl

/-- **manifest の group が一つまでなら、最初の同期の合図は信じてよい。**
合図の立つまでに揃った manifest がどれも group を高々一つ載せていれば、どこで失敗しても、
`last_synced` が `Some` の状態では `full_resync` を一度終えているか、
揃った manifest のどの group も一度は mirror に写っている。
それまでにこの replica を見た reconcile は、同期を待っていることだけを知らせる。 -/
theorem last_synced_trustworthy (prim : Primitives) (own : String) (l₀ : Link Replies)
    (acts : List Replica.Act) (hfresh : l₀.lastSynced = none)
    (hone : AtMostOne prim own l₀ acts) :
    (((Session.mk l₀ .down).exec scripted prim own acts).link.lastSynced ≠ none →
      Synced prim own l₀ acts) ∧
    ∀ (cfg : Config) (cr : BunkerSecret) (w : World), w.lastSynced.isSome =
        ((Session.mk l₀ .down).exec scripted prim own acts).link.lastSynced.isSome →
      Synced prim own l₀ acts ∨ (applyBunkerSecret cfg cr).next w = awaitSync cr := by
  have hlast : ((Session.mk l₀ .down).exec scripted prim own acts).link.lastSynced ≠ none →
      Synced prim own l₀ acts :=
    fun hne => (waiting_or_synced hfresh hone).resolve_left fun h => hne h.1
  refine ⟨hlast, fun cfg cr w hw => ?_⟩
  by_cases hnone : ((Session.mk l₀ .down).exec scripted prim own acts).link.lastSynced = none
  · rw [hnone] at hw
    exact Or.inr (gate_closed cfg cr (Option.isNone_iff_eq_none.mp (by simpa using hw)))
  · exact Or.inl (hlast hnone)

/-- まだ何も写していない replica。 -/
def freshLink : Link Replies := ⟨[], .empty, 0, [], false, none⟩

/-- 名前だけの group を載せた manifest を受け取り、`n` 歩だけ写す。 -/
def manifestActs (names : List String) (n : Nat) : List Replica.Act :=
  .connect :: names.map (fun name => .receive (.group name [] [])) ++ .receive .manifestDone ::
    List.replicate n .advance

/-- 写している manifest。 -/
def stash? (s : Session Replies) : Option (List GroupSyncState) :=
  match s.phase with
  | .working (.resync stash) _ => some stash
  | _ => none

theorem stash?_of_resyncing {s : Session Replies} {stash : List GroupSyncState}
    (h : s.Resyncing stash) : stash? s = some stash := by
  obtain ⟨rest, hp⟩ := h
  unfold stash?
  rw [hp]

theorem last_synced_trustworthy_sample :
    ((Session.mk freshLink .down).exec scripted plain "r" (manifestActs ["a"] 4)).link.lastSynced =
        some 0 ∧ Synced plain "r" freshLink (manifestActs ["a"] 4) := by
  refine ⟨by decide +kernel, (last_synced_trustworthy plain "r" freshLink _ rfl ?_).1
    (by decide +kernel)⟩
  have hcheck : ∀ earlier ∈ (manifestActs ["a"] 4).inits, ∀ stash ∈
      stash? ((Session.mk freshLink .down).exec scripted plain "r" earlier), stash.length ≤ 1 := by
    decide +kernel
  exact fun earlier hp stash hs _ =>
    hcheck earlier ((List.mem_inits _ _).mpr hp) stash (stash?_of_resyncing hs)

/-- 合図が信じられるだけのことは、まだ起きていない。 -/
def early (s : Session Replies) : Bool :=
  (match s.phase with
    | .live _ => false
    | .working _ (.ret _) => false
    | _ => true) &&
  (stash? s).all (fun stash => stash.any fun state => state.name == "b") &&
  (groupId s.link.mirror "b").isNone

/-- replica の今の mirror と合図を見る operator。 -/
def watching (s : Session Replies) : World :=
  { sampleWorld with mirror := s.link.mirror, lastSynced := s.link.lastSynced }

/-- 二つの group の manifest では、一つ目を写した時にもう合図が立ち、
二つ目を読む CR は group が無いと診断される。 -/
theorem signal_before_second_group :
    ((Session.mk freshLink .down).exec scripted plain "r"
        (manifestActs ["a", "b"] 4)).link.lastSynced = some 0 ∧
      ((applyBunkerSecret sampleConfig { sampleCr with spec := fanOut "b" }).run (watching
        ((Session.mk freshLink .down).exec scripted plain "r"
          (manifestActs ["a", "b"] 4)))).2.trace.getLast?.bind Entry.verdict =
        some (.missingGroup, 1) ∧
      ¬ Synced plain "r" freshLink (manifestActs ["a", "b"] 4) := by
  refine ⟨by decide +kernel, by decide +kernel, ?_⟩
  have hearly : ∀ earlier ∈ (manifestActs ["a", "b"] 4).inits,
      early ((Session.mk freshLink .down).exec scripted plain "r" earlier) = true := by
    decide +kernel
  -- どの途中の状態も、終えておらず、`b` を持たない
  rintro (⟨earlier, hp, job, hc⟩ | ⟨stash, ⟨earlier, hp, hs⟩, hheld⟩)
  · have h := hearly earlier ((List.mem_inits _ _).mpr hp)
    unfold early at h
    rcases hc with hc | hc <;> simp [hc] at h
  · have h := hearly earlier ((List.mem_inits _ _).mpr hp)
    unfold early at h
    rw [stash?_of_resyncing hs] at h
    simp only [Option.all_some, Bool.and_eq_true, List.any_eq_true, beq_iff_eq] at h
    obtain ⟨⟨-, state, hm, hb⟩, -⟩ := h
    obtain ⟨later, hp', hne⟩ := hheld state hm
    have h' := hearly later ((List.mem_inits _ _).mpr hp')
    unfold early at h'
    rw [Bool.and_eq_true, Option.isNone_iff_eq_none] at h'
    rw [hb] at hne
    exact hne h'.2

end Operator

end SecretBunker
