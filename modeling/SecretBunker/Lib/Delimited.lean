import Mathlib.Data.List.Basic

/-!
# 区切りの要らない符号

続きを足しても読み違えない符号。そのような符号は並べても読み違えないので、
長さを前に置いた欄を並べた列からは、もとの欄がそのまま戻る。

`ok` は符号が働く範囲である。長さを固定幅の整数で書く符号は、収まる長さにだけ働く。
-/

namespace Delimited

variable {α β γ : Type}

/-- 続きが何であっても、符号と続きの境目が決まる。 -/
def SelfDelimiting (ok : α → Prop) (code : α → List γ) : Prop :=
  ∀ a b r s, ok a → ok b → code a ++ r = code b ++ s → a = b ∧ r = s

variable {ok : α → Prop} {ok' : β → Prop} {code : α → List γ} {code' : β → List γ}

/-- 長さの揃った符号は、単射なら境目が決まる。 -/
theorem SelfDelimiting.of_length {n : Nat} (hlen : ∀ a, (code a).length = n)
    (hinj : ∀ a b, ok a → ok b → code a = code b → a = b) : SelfDelimiting ok code := by
  intro a b r s ha hb h
  obtain ⟨hcode, hrest⟩ := List.append_inj h ((hlen a).trans (hlen b).symm)
  exact ⟨hinj a b ha hb hcode, hrest⟩

/-- 長さを前に置けば、どんな列も境目が決まる。 -/
theorem SelfDelimiting.sized {len : Nat → List γ} {fits : Nat → Prop}
    (h : SelfDelimiting fits len) :
    SelfDelimiting (fun l : List γ => fits l.length) fun l => len l.length ++ l := by
  intro a b r s ha hb heq
  rw [List.append_assoc, List.append_assoc] at heq
  obtain ⟨hlen, hrest⟩ := h _ _ _ _ ha hb heq
  exact List.append_inj hrest hlen

theorem SelfDelimiting.pair (h : SelfDelimiting ok code) (h' : SelfDelimiting ok' code') :
    SelfDelimiting (fun p : α × β => ok p.1 ∧ ok' p.2) fun p => code p.1 ++ code' p.2 := by
  intro a b r s ha hb heq
  rw [List.append_assoc, List.append_assoc] at heq
  obtain ⟨hfst, hrest⟩ := h _ _ _ _ ha.1 hb.1 heq
  obtain ⟨hsnd, hrest⟩ := h' _ _ _ _ ha.2 hb.2 hrest
  exact ⟨Prod.ext hfst hsnd, hrest⟩

theorem SelfDelimiting.comap {f : β → α} (h : SelfDelimiting ok code)
    (hf : ∀ a b, f a = f b → a = b) :
    SelfDelimiting (fun b => ok (f b)) fun b => code (f b) := by
  intro a b r s ha hb heq
  obtain ⟨hab, hrest⟩ := h _ _ _ _ ha hb heq
  exact ⟨hf a b hab, hrest⟩

/-- **並べた符号から、もとの列が戻る。** -/
theorem SelfDelimiting.flatMap_inj (h : SelfDelimiting ok code) (hne : ∀ a, code a ≠ [])
    {xs ys : List α} (hxs : ∀ a ∈ xs, ok a) (hys : ∀ a ∈ ys, ok a)
    (heq : xs.flatMap code = ys.flatMap code) : xs = ys := by
  induction xs generalizing ys with
  | nil =>
    cases ys with
    | nil => rfl
    | cons y ys =>
      rw [List.flatMap_nil, List.flatMap_cons] at heq
      exact absurd (List.append_eq_nil_iff.mp heq.symm).1 (hne y)
  | cons x xs ih =>
    cases ys with
    | nil =>
      rw [List.flatMap_nil, List.flatMap_cons] at heq
      exact absurd (List.append_eq_nil_iff.mp heq).1 (hne x)
    | cons y ys =>
      rw [List.flatMap_cons, List.flatMap_cons] at heq
      obtain ⟨rfl, hrest⟩ :=
        h _ _ _ _ (hxs x List.mem_cons_self) (hys y List.mem_cons_self) heq
      rw [ih (fun a ha => hxs a (List.mem_cons_of_mem _ ha))
        (fun a ha => hys a (List.mem_cons_of_mem _ ha)) hrest]

end Delimited
