import SecretBunker.Lib.Text
import SecretBunker.Operator.Bridge
import SecretBunker.Operator.History

/-!
# 失敗した reconcile の間隔

`operator/src/reconcile.rs` の `reconcile` の終わりと `error_policy`。CR ごとに続けて失敗した回数を数え、
失敗の後は `10 · 2^回数` 秒、長くて 5 分を置く。回数は一つの map に `namespace/name` を鍵として置かれ、
並んで走るほかの CR の reconcile も同じ map に触れる。終わった reconcile が map に触れるのは一度だけなので、
割り込みは終わった順の列で尽くされる。
-/

namespace SecretBunker

open Text

namespace Operator

/-- `Context::backoffs` -/
abbrev Backoffs := String → Option UInt32

def backoffKey (cr : BunkerSecret) : String := cr.nameSpace ++ "/" ++ cr.name

/-- 失敗を一つ足し、足した後の回数を返す。`u32` の足し算は一周する。 -/
def recordError (backoffs : Backoffs) (key : String) : UInt32 × Backoffs :=
  let count := (backoffs key).getD 0 + 1
  (count, Function.update backoffs key (some count))

def clearBackoff (backoffs : Backoffs) (key : String) : Backoffs :=
  Function.update backoffs key none

/-- `BACKOFF_BASE`、秒。 -/
def backoffBase : Nat := 10

/-- `BACKOFF_CAP`、秒。 -/
def backoffCap : Nat := 5 * 60

/-- `checked_shl` は 64 以上で溢れ、`saturating_mul` は `u64::MAX` で止まる。 -/
def backoffDelay (count : UInt32) : Nat :=
  let factor := if count.toNat < 64 then 2 ^ count.toNat else 2 ^ 64 - 1
  min (min (backoffBase * factor) (2 ^ 64 - 1)) backoffCap

def errorPolicy (backoffs : Backoffs) (cr : BunkerSecret) : Action × Backoffs :=
  let recorded := recordError backoffs (backoffKey cr)
  (.requeue (backoffDelay recorded.1), recorded.2)

/-- 終わった reconcile。`none` は API の失敗である。 -/
structure Ended where
  cr : BunkerSecret
  result : Option (Except OperatorError Action)

/-- 成功は回数を消し、失敗は `error_policy` に渡る。 -/
def conclude (backoffs : Backoffs) (e : Ended) : Action × Backoffs :=
  match e.result with
  | some (.ok action) => (action, clearBackoff backoffs (backoffKey e.cr))
  | _ => errorPolicy backoffs e.cr

def backoffsAfter (ended : List Ended) : Backoffs :=
  ended.foldl (fun backoffs e => (conclude backoffs e).2) fun _ => none

def Ended.failed (e : Ended) : Bool :=
  match e.result with
  | some (.ok _) => false
  | _ => true

/-- 最後に成功してから、その CR が続けて失敗した回数。 -/
def failures (ended : List Ended) (cr : BunkerSecret) : Nat :=
  ((ended.filter fun e => objRef e.cr = objRef cr).rtakeWhile Ended.failed).length

theorem failures_snoc (ended : List Ended) (e : Ended) (cr : BunkerSecret) :
    failures (ended ++ [e]) cr =
      if objRef e.cr = objRef cr then (if e.failed then failures ended cr + 1 else 0)
      else failures ended cr := by
  by_cases hobj : objRef e.cr = objRef cr
  · cases hf : e.failed <;> simp [failures, hobj, hf]
  · simp [failures, hobj]

/-- namespace の名前に `/` は無いので、鍵は CR を見分ける。 -/
theorem backoffKey_eq_iff {a b : BunkerSecret} (ha : '/' ∉ a.nameSpace.toList)
    (hb : '/' ∉ b.nameSpace.toList) : backoffKey a = backoffKey b ↔ objRef a = objRef b := by
  have hsplit : ∀ {cr : BunkerSecret}, '/' ∉ cr.nameSpace.toList →
      splitOnce (· == '/') (backoffKey cr) = some (cr.nameSpace, cr.name) := by
    intro cr h
    have hslash : ∀ d ∈ cr.nameSpace.toList, (d == '/') = false :=
      fun d hd => beq_eq_false_iff_ne.mpr fun heq => h (heq ▸ hd)
    rw [← splitOnce_append hslash (beq_self_eq_true '/')]
    congr 1
    rw [← String.toList_inj]
    simp [backoffKey]
  constructor
  · intro h
    have hpair := (hsplit ha).symm.trans ((congrArg _ h).trans (hsplit hb))
    obtain ⟨hns, hname⟩ := Prod.mk.inj (Option.some.inj hpair)
    rw [objRef, hns, hname]
    rfl
  · intro h
    obtain ⟨hns, hname⟩ := ObjectRef.mk.inj h
    rw [backoffKey, hns, hname]
    rfl

theorem conclude_other {backoffs : Backoffs} {e : Ended} {key : String}
    (h : key ≠ backoffKey e.cr) : (conclude backoffs e).2 key = backoffs key := by
  unfold conclude
  split <;> exact Function.update_of_ne h _ _

theorem conclude_own (backoffs : Backoffs) (e : Ended) :
    ((conclude backoffs e).2 (backoffKey e.cr)).getD 0 =
      if e.failed then (backoffs (backoffKey e.cr)).getD 0 + 1 else 0 := by
  unfold conclude Ended.failed
  split <;> simp [errorPolicy, recordError, clearBackoff]

/-- map の数は、その CR が続けて失敗した回数である。 -/
theorem backoffsAfter_eq {ended : List Ended} {cr : BunkerSecret}
    (hns : ∀ e ∈ ended, '/' ∉ e.cr.nameSpace.toList) (hcr : '/' ∉ cr.nameSpace.toList) :
    (backoffsAfter ended (backoffKey cr)).getD 0 = UInt32.ofNat (failures ended cr) := by
  induction ended using List.reverseRecOn with
  | nil => rfl
  | append_singleton ended e ih =>
    have ih := ih fun x hx => hns x (by simp [hx])
    have hkey := backoffKey_eq_iff (hns e (by simp)) hcr
    rw [failures_snoc, backoffsAfter, List.foldl_concat, ← backoffsAfter]
    split
    · next hobj =>
      rw [← hkey.mpr hobj] at ih ⊢
      rw [conclude_own, ih]
      split
      · rw [UInt32.ofNat_add]
        rfl
      · rfl
    · next hobj => rw [conclude_other fun h => hobj (hkey.mp h.symm), ih]

/-- 溢れと飽和は、5 分の上限に隠れる。 -/
theorem backoffDelay_eq (count : UInt32) :
    backoffDelay count = min (backoffBase * 2 ^ count.toNat) backoffCap := by
  have hbig : ∀ n, 5 ≤ n → backoffCap ≤ backoffBase * 2 ^ n := by
    intro n hn
    have := Nat.pow_le_pow_right Nat.two_pos hn
    unfold backoffCap backoffBase
    omega
  unfold backoffDelay
  dsimp only
  rw [Nat.min_assoc, Nat.min_eq_right (show backoffCap ≤ 2 ^ 64 - 1 by decide)]
  split
  · rfl
  · next h => rw [Nat.min_eq_right (hbig _ (by omega)), Nat.min_eq_right (by decide)]

/-- **間隔は、その CR が続けて失敗した回数だけで決まる。** 並んで走る reconcile がどの順に終わっても、
失敗した CR の次の reconcile までは `min (10 · 2^n) 300` 秒で、`n` は最後の成功から数えた失敗の数である。
ほかの CR の成功も失敗も `n` を動かさない。 -/
theorem backoff_follows_failures {ended : List Ended} {e : Ended}
    (hns : ∀ x ∈ e :: ended, '/' ∉ x.cr.nameSpace.toList) (hfail : e.failed = true) :
    (conclude (backoffsAfter ended) e).1 =
      .requeue (min (10 * 2 ^ ((failures ended e.cr + 1) % 2 ^ 32)) 300) := by
  have hcount : _ = UInt32.ofNat (failures ended e.cr) :=
    backoffsAfter_eq (fun x hx => hns x (by simp [hx])) (hns e (by simp))
  have hconclude : conclude (backoffsAfter ended) e = errorPolicy (backoffsAfter ended) e.cr := by
    unfold conclude
    split
    · next action hr => simp [Ended.failed, hr] at hfail
    · rfl
  rw [hconclude]
  show Action.requeue (backoffDelay ((backoffsAfter ended (backoffKey e.cr)).getD 0 + 1)) = _
  rw [hcount, show _ + 1 = UInt32.ofNat (failures ended e.cr + 1) from (UInt32.ofNat_add _ _).symm,
    backoffDelay_eq, UInt32.toNat_ofNat']
  rfl

theorem backoff_follows_failures_sample :
    (conclude (backoffsAfter [⟨sampleCr, none⟩,
      ⟨{ sampleCr with name := "other" }, some (.ok .awaitChange)⟩, ⟨sampleCr, none⟩])
      ⟨sampleCr, none⟩).1 = .requeue 80 :=
  (backoff_follows_failures (by simp [sampleCr]) rfl).trans (by decide +kernel)

end Operator

end SecretBunker
