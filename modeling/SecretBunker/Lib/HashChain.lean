import Mathlib.Data.List.Induction

/-!
# hash の鎖

各行が前の行の hash を抱え、自分の hash を前の hash と中身から作る列。最後の hash が列の全体を
決めることを、長さの違うかもしれない二本の鎖を末尾から遡って示す。

hash には、二本の鎖に現れる入力の上で衝突しないことと、始まりの値を出さないことだけを求める。
どんな入力にも衝突しない hash は、出力の長さが決まっていれば存在しないからである。
-/

namespace HashChain

variable {δ α : Type}

/-- 鎖の一行。 -/
structure Link (δ α : Type) where
  prev : δ
  content : α
  hash : δ

/-- `start` に続く鎖である。 -/
def Chained (digest : δ → α → δ) : δ → List (Link δ α) → Prop
  | _, [] => True
  | start, r :: rest =>
    r.prev = start ∧ r.hash = digest r.prev r.content ∧ Chained digest r.hash rest

/-- 最後の hash。空なら始まりの値である。 -/
def head (start : δ) (rows : List (Link δ α)) : δ := (rows.getLast?.map Link.hash).getD start

@[simp] theorem head_nil (start : δ) : head start ([] : List (Link δ α)) = start := rfl

@[simp] theorem head_concat (start : δ) (rows : List (Link δ α)) (r : Link δ α) :
    head start (rows ++ [r]) = r.hash := by
  rw [head, List.getLast?_concat]
  rfl

theorem head_cons (start : δ) (r : Link δ α) (rows : List (Link δ α)) :
    head start (r :: rows) = head r.hash rows := by
  rcases List.eq_nil_or_concat rows with rfl | ⟨front, last, rfl⟩
  · rfl
  · rw [List.concat_eq_append, ← List.cons_append, head_concat, head_concat]

variable {digest : δ → α → δ} {start : δ} {rows rows' : List (Link δ α)}

theorem chained_concat {r : Link δ α} : Chained digest start (rows ++ [r]) ↔
    Chained digest start rows ∧ r.prev = head start rows ∧ r.hash = digest r.prev r.content := by
  induction rows generalizing start with
  | nil => simp [Chained]
  | cons x rest ih =>
    rw [List.cons_append, Chained, Chained, ih, head_cons]
    simp only [and_assoc]

/-- 始まりの値とどの hash にも言えることは、どの行の `prev` にも言える。 -/
theorem Chained.prev {P : δ → Prop} (h : Chained digest start rows) (hstart : P start)
    (hdigest : ∀ d a, P (digest d a)) : ∀ r ∈ rows, P r.prev := by
  induction rows generalizing start with
  | nil => exact fun r hr => absurd hr List.not_mem_nil
  | cons x rest ih =>
    obtain ⟨hprev, hhash, hrest⟩ := h
    intro r hr
    rcases List.mem_cons.mp hr with rfl | hr
    · exact hprev ▸ hstart
    · exact ih hrest (hhash ▸ hdigest _ _) r hr

theorem Chained.hash_eq (h : Chained digest start rows) :
    ∀ r ∈ rows, r.hash = digest r.prev r.content := by
  induction rows generalizing start with
  | nil => exact fun r hr => absurd hr List.not_mem_nil
  | cons x rest ih =>
    intro r hr
    rcases List.mem_cons.mp hr with rfl | hr
    · exact h.2.1
    · exact ih h.2.2 r hr

/-- `start` を出さない鎖で、最後の値が `start` なら空である。 -/
theorem Chained.eq_nil (h : Chained digest start rows)
    (hstart : ∀ r ∈ rows, digest r.prev r.content ≠ start) (hhead : head start rows = start) :
    rows = [] := by
  rcases List.eq_nil_or_concat rows with rfl | ⟨front, last, rfl⟩
  · rfl
  · rw [List.concat_eq_append] at h hstart hhead
    have hmem : last ∈ front ++ [last] := List.mem_append_right _ (List.mem_singleton_self _)
    rw [head_concat, h.hash_eq last hmem] at hhead
    exact absurd hhead (hstart last hmem)

/--
**最後の hash は鎖の全体を決める。**

末尾の hash が同じなら、衝突が無いので前の hash と中身も同じである。これを繰り返して始まりまで遡る。
`start` はどの行の hash でもないので、片方だけが先に始まりに着くことはない。
-/
theorem Chained.ext (h : Chained digest start rows) (h' : Chained digest start rows')
    (hinj : ∀ r ∈ rows, ∀ r' ∈ rows', digest r.prev r.content = digest r'.prev r'.content →
      r.prev = r'.prev ∧ r.content = r'.content)
    (hstart : ∀ r ∈ rows, digest r.prev r.content ≠ start)
    (hstart' : ∀ r ∈ rows', digest r.prev r.content ≠ start)
    (hhead : head start rows = head start rows') : rows = rows' := by
  induction rows using List.reverseRecOn generalizing rows' with
  | nil => exact (h'.eq_nil hstart' hhead.symm).symm
  | append_singleton front r ih =>
    rcases List.eq_nil_or_concat rows' with rfl | ⟨front', r', rfl⟩
    · exact h.eq_nil hstart hhead
    · rw [List.concat_eq_append] at h' hinj hstart' hhead ⊢
      have hmem : r ∈ front ++ [r] := List.mem_append_right _ (List.mem_singleton_self _)
      have hmem' : r' ∈ front' ++ [r'] := List.mem_append_right _ (List.mem_singleton_self _)
      obtain ⟨hc, hp, hh⟩ := chained_concat.mp h
      obtain ⟨hc', hp', hh'⟩ := chained_concat.mp h'
      rw [head_concat, head_concat] at hhead
      obtain ⟨hprev, hcontent⟩ := hinj r hmem r' hmem' (hh.symm.trans (hhead.trans hh'))
      have hfront : front = front' := by
        refine ih hc hc' (fun x hx y hy => ?_) (fun x hx => ?_) (fun x hx => ?_) ?_
        · exact hinj x (List.mem_append_left _ hx) y (List.mem_append_left _ hy)
        · exact hstart x (List.mem_append_left _ hx)
        · exact hstart' x (List.mem_append_left _ hx)
        · exact hp.symm.trans (hprev.trans hp')
      have hlast : r = r' := by
        cases r
        cases r'
        cases hprev
        cases hcontent
        cases hhead
        rfl
      rw [hfront, hlast]

end HashChain
