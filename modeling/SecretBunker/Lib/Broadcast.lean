import Mathlib.Logic.Basic

/-!
# 容量のある broadcast の受け手

送り手は待たない。受け手の列が一杯なら最も古いものが落ち、受け手は次に受け取るときに
取りこぼしがあったことを一度だけ知らされる。
-/

namespace Broadcast

/-- 受け手。`queue` は古い順で、`lagged` は知らせていない取りこぼしがあること。 -/
structure Receiver (α : Type) where
  queue : List α
  lagged : Bool
  deriving DecidableEq

namespace Receiver

variable {α : Type} {r r' : Receiver α} {x y : α}

/-- 購読を始めたばかりの受け手。 -/
def fresh : Receiver α := ⟨[], false⟩

/-- 満ちていれば、最も古い一つを落とし、遅れた印を付ける。 -/
def send (capacity : Nat) (r : Receiver α) (x : α) : Receiver α :=
  if r.queue.length < capacity then { r with queue := r.queue ++ [x] }
  else ⟨r.queue.tail ++ [x], true⟩

/-- 順に送る。 -/
def sendAll (capacity : Nat) (r : Receiver α) (xs : List α) : Receiver α :=
  xs.foldl (send capacity) r

/-- 次の一つを受け取る。`none` は取りこぼしの知らせで、列が空なら待つ。 -/
def recv (r : Receiver α) : Option (Option α × Receiver α) :=
  if r.lagged then some (none, { r with lagged := false })
  else
    match r.queue with
    | [] => none
    | x :: rest => some (some x, { r with queue := rest })

/-- 受け取る物がもう無い。 -/
def Drained (r : Receiver α) : Prop := r.queue = [] ∧ r.lagged = false

/-- 送られた `x` はまだ失われていない。列にあるか、取りこぼしがこれから知らされる。 -/
def Holds (r : Receiver α) (x : α) : Prop := r.lagged = true ∨ x ∈ r.queue

theorem holds_send (capacity : Nat) : (r.send capacity x).Holds x := by
  unfold send
  split
  · exact Or.inr (List.mem_append_right _ (List.mem_singleton_self x))
  · exact Or.inl rfl

theorem Holds.send (capacity : Nat) (h : r.Holds y) : (r.send capacity x).Holds y := by
  unfold Receiver.send
  split
  · exact h.imp_right (List.mem_append_left _)
  · exact Or.inl rfl

theorem Holds.sendAll (capacity : Nat) {xs : List α} (h : r.Holds y ∨ y ∈ xs) :
    (r.sendAll capacity xs).Holds y := by
  induction xs generalizing r with
  | nil =>
    rcases h with h | h
    · exact h
    · cases h
  | cons x rest ih =>
    refine @ih (r.send capacity x) ?_
    rcases h with h | h
    · exact Or.inl (h.send capacity)
    · rcases List.mem_cons.mp h with rfl | h
      · exact Or.inl (holds_send capacity)
      · exact Or.inr h

/-- 受け取っても、受け取った物か知らせのほかは失われない。 -/
theorem Holds.recv {got : Option α} (h : r.Holds y) (hr : r.recv = some (got, r')) :
    got = none ∨ got = some y ∨ r'.Holds y := by
  unfold Receiver.recv at hr
  split at hr
  · cases hr
    exact Or.inl rfl
  · next hlag =>
    rcases h with h | h
    · exact absurd h hlag
    · split at hr
      · cases hr
      · next x rest hq =>
        cases hr
        rw [hq] at h
        rcases List.mem_cons.mp h with rfl | h
        · exact Or.inr (Or.inl rfl)
        · exact Or.inr (Or.inr (Or.inr h))

/-- 収まる限りは、送った順に並ぶ。 -/
theorem sendAll_of_fits {capacity : Nat} {xs : List α}
    (h : r.queue.length + xs.length ≤ capacity) :
    r.sendAll capacity xs = { r with queue := r.queue ++ xs } := by
  induction xs generalizing r with
  | nil => simp [sendAll]
  | cons x xs ih =>
    rw [List.length_cons] at h
    have hsend : r.send capacity x = { r with queue := r.queue ++ [x] } := by
      unfold send
      rw [if_pos (by omega)]
    show (r.send capacity x).sendAll capacity xs = _
    rw [hsend, ih (by simp only [List.length_append, List.length_singleton]; omega)]
    simp

/-- 一つ多く送れば、最も古いものが落ちる。 -/
theorem sendAll_overflow {capacity : Nat} (x : α) {xs : List α} (h : xs.length = capacity)
    (hpos : 0 < capacity) : sendAll capacity .fresh (x :: xs) = ⟨xs, true⟩ := by
  obtain ⟨ys, y, rfl⟩ : ∃ ys y, xs = ys ++ [y] :=
    ⟨_, _, (List.dropLast_concat_getLast (List.ne_nil_of_length_pos (h ▸ hpos))).symm⟩
  rw [List.length_append, List.length_singleton] at h
  have hfits : sendAll capacity .fresh (x :: ys) = ⟨x :: ys, false⟩ :=
    sendAll_of_fits (by simp only [fresh, List.length_nil, List.length_cons]; omega)
  unfold sendAll at hfits ⊢
  rw [← List.cons_append, List.foldl_append, hfits]
  show send capacity ⟨x :: ys, false⟩ y = _
  unfold send
  rw [if_neg (by simp only [List.length_cons]; omega)]
  rfl

theorem Drained.not_holds (h : r.Drained) : ¬ r.Holds x := by
  rintro (hl | hq)
  · rw [h.2] at hl
    cases hl
  · rw [h.1] at hq
    cases hq

end Receiver

end Broadcast
