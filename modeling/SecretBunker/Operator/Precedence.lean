import SecretBunker.Lib.Attempt
import SecretBunker.Operator.Render

/-!
# `render` の言い換え

`render` は二重の繰り返しの途中で error を返し、使えない鍵は貯め、重なった鍵は上書きする。
ここでは同じ結果を、順序だけを持つ二つの列で言い直す。

1. **試み**：読むこと、JSON に直すこと、pointer を引くことを、`dataFrom`、`data` の順に並べた列。
   一つでも失敗すれば、結果は最初の失敗である。
2. **組**：試みがすべて成功したときの `(鍵, 値)` の列。使えない鍵があれば並べて断り、
   無ければ鍵ごとに最後の値を取る。

上書きの規則（後の `dataFrom` が勝ち、`data` が必ず勝つ）は、組の並び順だけから出る。
-/

namespace SecretBunker

open Fallible Ordered Relational

namespace Operator

/-- 一つの試み。成功すれば `(鍵, 値)` の組を産む。 -/
abbrev Attempt := Except RenderError (List (String × Bytes))

section Attempts

variable (formats : Formats) (source : SecretSource)

/-- `extract` の試み。 -/
def extractAttempt (group name : String) : Attempt := do
  let value ← lookup source group name
  let json ← parseJson formats group name value
  match formats.asObject json with
  | none => .error (.notObject group name)
  | some obj => pure (obj.map fun e => (e.1, jsonValueBytes formats e.2))

/-- `dataFrom` の一項の試み。group は名前ごとに一つである。 -/
def fromAttempts : DataFromEntry → List Attempt
  | .group group rewrite =>
    match source.list group with
    | .error e => [.error (sourceErr e group "")]
    | .ok names => names.map fun name =>
        (lookup source group name).map fun value => [(rewriteName rewrite name, value)]
  | .extract group name => [extractAttempt formats source group name]

/-- `data` の一項の試み。 -/
def dataAttempt (d : DataEntry) : Attempt := do
  let value ← lookup source d.remoteRef.group d.remoteRef.name
  match d.remoteRef.property with
  | none => pure [(d.secretKey, value)]
  | some pointer => do
    let json ← parseJson formats d.remoteRef.group d.remoteRef.name value
    match formats.pointer json pointer with
    | none => .error (.pointer d.remoteRef.group d.remoteRef.name pointer)
    | some v => pure [(d.secretKey, jsonValueBytes formats v)]

/-- spec の試みのすべて。 -/
def attempts (spec : BunkerSecretSpec) : List Attempt :=
  spec.dataFrom.flatMap (fromAttempts formats source) ++ spec.data.map (dataAttempt formats source)

/-- 試みの産む組。 -/
def produced (tries : List Attempt) : List (String × Bytes) := (values tries).flatten

end Attempts

theorem produced_append (l l' : List Attempt) : produced (l ++ l') = produced l ++ produced l' := by
  unfold produced
  rw [values_append, List.flatten_append]

/-! ## 貯めること -/

def Rendered.putAll (r : Rendered) (pairs : List (String × Bytes)) : Rendered :=
  pairs.foldl (fun r p => r.put p.1 p.2) r

theorem Rendered.putAll_out (r : Rendered) (pairs : List (String × Bytes)) (key : String) :
    (r.putAll pairs).out.get? key =
      if validKey key then (lastOf pairs key).or (r.out.get? key) else r.out.get? key := by
  induction pairs generalizing r with
  | nil => simp [putAll, lastOf]
  | cons p rest ih =>
    show ((r.put p.1 p.2).putAll rest).out.get? key = _
    rw [ih, lastOf_cons]
    unfold put
    by_cases hk : p.1 = key
    · subst hk
      by_cases hv : validKey p.1 = true <;> simp [hv, SortedMap.get?_insert]
    · by_cases hv : validKey p.1 = true <;> simp [hv, hk, SortedMap.get?_insert]

theorem Rendered.putAll_invalid (r : Rendered) (pairs : List (String × Bytes)) :
    (r.putAll pairs).invalid = r.invalid ++ (pairs.map (·.1)).filter (fun k => !validKey k) := by
  induction pairs generalizing r with
  | nil => simp [putAll]
  | cons p rest ih =>
    show ((r.put p.1 p.2).putAll rest).invalid = _
    rw [ih]
    unfold put
    by_cases hv : validKey p.1 = true <;> simp [hv]

/-! ## 繰り返しは試みを順に行う -/

section Loops

variable (formats : Formats) (source : SecretSource)

/-- 試みを一つ行い、組を貯める。 -/
def absorb (r : Rendered) (a : Attempt) : Except RenderError Rendered := a.map r.putAll

/-- `dataFrom` の一項は、試みを順に取り込むことである。 -/
theorem renderFrom_eq (r : Rendered) (entry : DataFromEntry) :
    renderFrom formats source r entry = (fromAttempts formats source entry).foldlM absorb r := by
  cases entry with
  | group group rewrite =>
    cases hl : source.list group with
    | error e =>
      simp only [renderFrom, fromAttempts, hl]
      rfl
    | ok names =>
      simp only [renderFrom, fromAttempts, hl, List.foldlM_map]
      show names.foldlM _ r = _
      congr 1
      funext r name
      cases lookup source group name <;> rfl
  | extract group name =>
    simp only [renderFrom, fromAttempts, extractAttempt, List.foldlM_cons, List.foldlM_nil]
    cases lookup source group name with
    | error e => rfl
    | ok value =>
      cases hp : parseJson formats group name value with
      | error e =>
        simp only [bind, Except.bind, hp]
        rfl
      | ok json =>
        cases ho : formats.asObject json with
        | none =>
          simp only [bind, Except.bind, hp, ho]
          rfl
        | some obj =>
          simp only [bind, Except.bind, hp, ho, absorb, Rendered.putAll, Except.map, pure, Except.pure,
            List.foldl_map]

/-- `data` の一項は、試みを一つ取り込むことである。 -/
theorem renderData_eq (r : Rendered) (d : DataEntry) :
    renderData formats source r d = absorb r (dataAttempt formats source d) := by
  unfold renderData dataAttempt
  cases lookup source d.remoteRef.group d.remoteRef.name with
  | error e => rfl
  | ok value =>
    cases d.remoteRef.property with
    | none => rfl
    | some pointer =>
      cases hp : parseJson formats d.remoteRef.group d.remoteRef.name value with
      | error e =>
        simp only [bind, Except.bind, hp]
        rfl
      | ok json =>
        cases ho : formats.pointer json pointer with
        | none =>
          simp only [bind, Except.bind, hp, ho]
          rfl
        | some v =>
          simp only [bind, Except.bind, hp, ho]
          rfl

/-- 繰り返しを平らにした `render`。 -/
theorem render_eq (spec : BunkerSecretSpec) :
    render formats source spec =
      match firstError (attempts formats source spec) with
      | some e => .error e
      | none =>
        let r := Rendered.putAll {} (produced (attempts formats source spec))
        if r.invalid.isEmpty then .ok r.out
        else .error (.invalidKey ((sortOn id r.invalid).destutter (· ≠ ·))) := by
  have hfrom : renderFrom formats source = fun r e => (fromAttempts formats source e).foldlM absorb r :=
    funext₂ (renderFrom_eq formats source)
  have hdata : renderData formats source = fun r d => absorb r (dataAttempt formats source d) :=
    funext₂ (renderData_eq formats source)
  have hloops : (spec.dataFrom.foldlM (renderFrom formats source) {} >>=
      fun r => spec.data.foldlM (renderData formats source) r) =
        (attempts formats source spec).foldlM absorb {} := by
    unfold attempts
    simp only [hfrom, hdata, foldlM_flatMap, List.foldlM_append, List.foldlM_map]
  unfold render
  rw [← bind_assoc, hloops]
  unfold absorb
  rw [foldlM_eq Rendered.putAll]
  cases firstError (attempts formats source spec) with
  | some e => rfl
  | none =>
    unfold produced Rendered.putAll
    rw [List.foldl_flatten]
    rfl

theorem mem_unusable {pairs : List (String × Bytes)} {k : String} :
    k ∈ (pairs.map (·.1)).filter (fun k => !validKey k) ↔
      validKey k = false ∧ ∃ v, (k, v) ∈ pairs := by
  rw [List.mem_filter, Bool.not_eq_true', and_comm, List.mem_map]
  refine and_congr_right fun _ => ⟨?_, fun ⟨v, hv⟩ => ⟨(k, v), hv, rfl⟩⟩
  rintro ⟨⟨k', v⟩, hp, rfl⟩
  exact ⟨v, hp⟩

/-- どの鍵も使えるなら、鍵ごとに最後の値が残る。 -/
theorem Rendered.get?_putAll {pairs : List (String × Bytes)}
    (hall : ∀ p ∈ pairs, validKey p.1 = true) (k : String) :
    (Rendered.putAll {} pairs).out.get? k = lastOf pairs k := by
  rw [Rendered.putAll_out]
  split
  · exact Option.or_none
  · next hv =>
    -- 使えない鍵は組に現れない
    symm
    refine lastOf_eq_none.mpr fun p hp he => hv ?_
    rw [← he]
    exact hall p hp

/-- **`render` は、最初の失敗か、使えない鍵の並びか、鍵ごとに最後の値を取った写像を返す。**
試みは `dataFrom` の項、`data` の項の順に並ぶ。したがって `data` の値は必ず残り、
`dataFrom` では後の項の値が残る。組に無い鍵は現れない。 -/
theorem render_declarative (spec : BunkerSecretSpec) :
    (∀ e, firstError (attempts formats source spec) = some e →
      render formats source spec = .error e) ∧
    (firstError (attempts formats source spec) = none →
      ((∃ p ∈ produced (attempts formats source spec), validKey p.1 = false) →
        ∃ keys, render formats source spec = .error (.invalidKey keys) ∧ keys.Pairwise (· < ·) ∧
          ∀ k, k ∈ keys ↔
            validKey k = false ∧ ∃ v, (k, v) ∈ produced (attempts formats source spec)) ∧
      ((∀ p ∈ produced (attempts formats source spec), validKey p.1 = true) →
        ∃ data, render formats source spec = .ok data ∧
          (∀ k, data.get? k = lastOf (produced (attempts formats source spec)) k) ∧
          (∀ k v, lastOf (produced (spec.data.map (dataAttempt formats source))) k = some v →
            data.get? k = some v) ∧
          ∀ earlier later, spec.dataFrom = earlier ++ later → ∀ k v,
            lastOf (produced (spec.data.map (dataAttempt formats source))) k = none →
            lastOf (produced (later.flatMap (fromAttempts formats source))) k = some v →
              data.get? k = some v)) := by
  have hrender := render_eq formats source spec
  refine ⟨fun e he => by rw [hrender, he], fun hok => ?_⟩
  rw [hok] at hrender
  simp only [Rendered.putAll_invalid, List.nil_append] at hrender
  constructor
  · rintro ⟨⟨k, v⟩, hp, hv⟩
    have hne : ¬ (((produced (attempts formats source spec)).map (·.1)).filter
        fun k => !validKey k).isEmpty = true := by
      rw [List.isEmpty_iff]
      exact List.ne_nil_of_mem (mem_unusable.mpr ⟨hv, v, hp⟩)
    rw [if_neg hne] at hrender
    refine ⟨_, hrender, pairwise_destutter_ne (sorted_sortOn id _), fun k => ?_⟩
    rw [mem_destutter_ne, mem_sortOn]
    exact mem_unusable
  · intro hall
    have hnil : ((produced (attempts formats source spec)).map (·.1)).filter
        (fun k => !validKey k) = [] := by
      refine List.eq_nil_iff_forall_not_mem.mpr fun k hk => ?_
      obtain ⟨hv, v, hp⟩ := mem_unusable.mp hk
      rw [hall _ hp] at hv
      cases hv
    rw [hnil] at hrender
    have hget := Rendered.get?_putAll hall
    refine ⟨_, hrender, hget, ?_, ?_⟩
    · intro k v hv
      rw [hget, attempts, produced_append, lastOf_append, hv]
      rfl
    · intro earlier later hsplit k v hnone hv
      rw [hget, attempts, produced_append, lastOf_append, hnone, hsplit, List.flatMap_append,
        produced_append, lastOf_append, hv]
      rfl

end Loops

end Operator

end SecretBunker
