import Mathlib.Data.List.DropRight

/-!
# relay の見張り

`src/relayhealth.rs`。endpoint の relay が黙って壊れたままになるのを、二つの見張りが調べる。

* `RelayDownTracker` — 一度は繋がった endpoint が、relay の無いまま長く過ごしたこと
* `MismatchStreak` — 公開した record の relay に、続けて繋がっていなかったこと

どちらも標本を一つずつ受け取る小さな状態機械である。`observe_after_iff` の二つは、印が立つことを
受け取った標本の列だけで述べ直す。以後の証明は状態機械を開かない。

`std::time::Instant` は自然数で、`duration_since` は負にならない引き算である。
record の照会に失敗した回数は log の水準を決めるだけなので持たない。
-/

namespace SecretBunker

namespace Serve

/-- endpoint を作り直す理由。 -/
inductive WedgeReason where
  | relayDown
  | recordMismatch
  deriving DecidableEq

/-! ## 途絶の時計 -/

/-- 「繋がっていたのに、長く途絶えている」の計時。一度も繋がらない endpoint では動かない。 -/
structure RelayDownTracker where
  downAfter : Nat
  wasConnected : Bool
  downSince : Option Nat
  deriving DecidableEq

/-- 標本：どれかの relay に繋がっているかと、その時刻。 -/
abbrev Sample := Bool × Nat

namespace RelayDownTracker

def new (downAfter : Nat) : RelayDownTracker := ⟨downAfter, false, none⟩

/-- 標本を一つ受け取る。作り直すべきなら true。 -/
def observe (t : RelayDownTracker) (anyConnected : Bool) (now : Nat) : Bool × RelayDownTracker :=
  if anyConnected then (false, { t with wasConnected := true, downSince := none })
  else if !t.wasConnected then (false, t)
  else
    let since := t.downSince.getD now
    (decide (t.downAfter ≤ now - since), { t with downSince := some since })

/-- 標本の列を受け取った後の計時。 -/
def after (t : RelayDownTracker) (samples : List Sample) : RelayDownTracker :=
  samples.foldl (fun t s => (t.observe s.1 s.2).2) t

end RelayDownTracker

/-- 最後に繋がった標本より後の標本。 -/
def outage (samples : List Sample) : List Sample := samples.rtakeWhile fun s => !s.1

/-- 標本の列が示す途絶：繋がった標本があり、その後の標本の幅が `downAfter` に届く。 -/
def Outage (downAfter : Nat) (samples : List Sample) : Prop :=
  (∃ s ∈ samples, s.1 = true) ∧ ∃ first last, (outage samples).head? = some first ∧
    (outage samples).getLast? = some last ∧ downAfter ≤ last.2 - first.2

@[simp] theorem outage_snoc (samples : List Sample) (s : Sample) :
    outage (samples ++ [s]) = if s.1 then [] else outage samples ++ [s] := by
  unfold outage
  cases h : s.1 <;> simp [h]

namespace RelayDownTracker

/-- 計時が覚えているのは、繋がったことがあるかと、今の途絶の最初の時刻である。 -/
theorem after_new (downAfter : Nat) (samples : List Sample) :
    (new downAfter).after samples = ⟨downAfter, samples.any (·.1),
      if samples.any (·.1) then (outage samples).head?.map (·.2) else none⟩ := by
  unfold after
  induction samples using List.reverseRecOn with
  | nil => rfl
  | append_singleton samples s ih =>
    obtain ⟨connected, now⟩ := s
    rw [List.foldl_concat, ih]
    cases connected with
    | true => simp [observe]
    | false =>
      cases hany : samples.any (·.1) with
      | false => simp [observe, hany]
      | true => cases h : outage samples <;> simp [observe, hany, h]

/-- 印が立つのは、受け取った標本が途絶を示すときに限る。 -/
theorem observe_after_iff (downAfter : Nat) (samples : List Sample) (s : Sample) :
    (((new downAfter).after samples).observe s.1 s.2).1 = true ↔
      Outage downAfter (samples ++ [s]) := by
  obtain ⟨connected, now⟩ := s
  rw [after_new]
  cases connected with
  | true => simp [observe, Outage]
  | false =>
    cases hany : samples.any (·.1) with
    | false =>
      have hnone : ∀ now : Nat, (true, now) ∉ samples := by simpa using hany
      simp [observe, Outage, hnone]
    | true =>
      have hconn : ∃ s ∈ samples ++ [(false, now)], s.1 = true := by
        obtain ⟨s, hs, h⟩ := List.any_eq_true.mp hany
        exact ⟨s, List.mem_append_left _ hs, h⟩
      have hlast : (outage samples ++ [(false, now)]).getLast? = some (false, now) := by simp
      rw [Outage, outage_snoc, and_iff_right hconn]
      simp only [Bool.false_eq_true, if_false, hlast]
      cases h : outage samples <;> simp [observe]

end RelayDownTracker

/-! ## record の照合 -/

/-- 照合一回の結果。 -/
inductive Observation where
  | matched
  | mismatch
  /-- 照会に失敗した。どちらの証拠にもならない。 -/
  | inconclusive
  deriving DecidableEq

/-- 続けて合わなかった回数。 -/
structure MismatchStreak where
  threshold : Nat
  n : Nat
  deriving DecidableEq

namespace MismatchStreak

def new (threshold : Nat) : MismatchStreak := ⟨threshold, 0⟩

def observe (s : MismatchStreak) (obs : Observation) : Bool × MismatchStreak :=
  let n := match obs with
    | .matched => 0
    | .mismatch => s.n + 1
    | .inconclusive => s.n
  (decide (s.threshold ≤ n), { s with n })

/-- 照合の列の後の回数。 -/
def after (s : MismatchStreak) (observations : List Observation) : MismatchStreak :=
  observations.foldl (fun s obs => (s.observe obs).2) s

end MismatchStreak

/-- 最後に合った照合より後の、合わなかった照合の数。 -/
def mismatches (observations : List Observation) : Nat :=
  (observations.rtakeWhile (· ≠ .matched)).count .mismatch

@[simp] theorem mismatches_nil : mismatches [] = 0 := rfl

@[simp] theorem mismatches_snoc (observations : List Observation) (obs : Observation) :
    mismatches (observations ++ [obs]) =
      match obs with
      | .matched => 0
      | .mismatch => mismatches observations + 1
      | .inconclusive => mismatches observations := by
  unfold mismatches
  cases obs <;> simp

namespace MismatchStreak

theorem after_new (threshold : Nat) (observations : List Observation) :
    (new threshold).after observations = ⟨threshold, mismatches observations⟩ := by
  unfold after
  induction observations using List.reverseRecOn with
  | nil => rfl
  | append_singleton observations obs ih =>
    rw [List.foldl_concat, ih, mismatches_snoc]
    cases obs <;> rfl

/-- 印が立つのは、合わない照合が、合うもの無しに `threshold` まで溜まったときに限る。 -/
theorem observe_after_iff (threshold : Nat) (observations : List Observation) (obs : Observation) :
    (((new threshold).after observations).observe obs).1 = true ↔
      threshold ≤ mismatches (observations ++ [obs]) := by
  rw [after_new, mismatches_snoc]
  cases obs <;> simp [observe]

end MismatchStreak

/-- relay の url と、繋がっているかどうか。 -/
abbrev RelayStatus := String × Bool

/-- record を辿る peer が届かないときの警告。載っている relay の一つにでも繋がっていれば無い。 -/
def recordMismatch (advertised : List String) (live : List RelayStatus) : Option String :=
  if advertised.isEmpty then some "published discovery record advertises no relay"
  else if advertised.any fun adv => live.any fun s => s.2 && s.1 == adv then none
  else some ("published discovery record advertises relay(s) [" ++ ", ".intercalate advertised ++
    "] but connected relay(s) are [" ++
    ", ".intercalate ((live.filter (·.2)).map (·.1)) ++
    "] — remote peers following the record cannot reach us")

/-- 照会の結果から照合の結果へ。`none` は照会の失敗である。 -/
def verdict (lookup : Option (List String)) (live : List RelayStatus) : Observation :=
  match lookup with
  | none => .inconclusive
  | some advertised => if (recordMismatch advertised live).isSome then .mismatch else .matched

end Serve

end SecretBunker
