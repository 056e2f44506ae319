import Mathlib.Data.List.DropRight
import Mathlib.Data.List.TakeWhile

/-!
# 文字列の切り分け

`str` の切り分けの関数と、書いた文字列を読み戻すための補題。
-/

namespace Text

/-- `char::is_whitespace` -/
def isWhitespace (c : Char) : Bool :=
  (9 ≤ c.toNat && c.toNat ≤ 13) || (0x2000 ≤ c.toNat && c.toNat ≤ 0x200A) ||
    [0x20, 0x85, 0xA0, 0x1680, 0x2028, 0x2029, 0x202F, 0x205F, 0x3000].contains c.toNat

/-- `str::trim` -/
def trim (s : String) : String :=
  String.ofList ((s.toList.dropWhile isWhitespace).reverse.dropWhile isWhitespace).reverse

/-- `str::split_inclusive('\n')` -/
def splitInclusive : List Char → List (List Char)
  | [] => []
  | c :: rest =>
    if c = '\n' then [c] :: splitInclusive rest
    else
      match splitInclusive rest with
      | [] => [[c]]
      | line :: lines => (c :: line) :: lines

/-- 行末の `\n` と、その前の `\r` を除く。 -/
def stripLineEnd (line : List Char) : List Char :=
  if line.getLast? = some '\n' then
    if line.dropLast.getLast? = some '\r' then line.dropLast.dropLast else line.dropLast
  else line

/-- `str::lines` -/
def lines (s : String) : List String :=
  (splitInclusive s.toList).map fun line => String.ofList (stripLineEnd line)

/-- `str::split_once` -/
def splitOnce (p : Char → Bool) (s : String) : Option (String × String) :=
  match s.toList.dropWhile fun c => !p c with
  | [] => none
  | _ :: rest => some (String.ofList (s.toList.takeWhile fun c => !p c), String.ofList rest)

/-! ## trim -/

theorem dropWhile_eq_self_of_head {p : Char → Bool} {l : List Char}
    (h : ∀ c, l.head? = some c → p c = false) : l.dropWhile p = l := by
  cases l with
  | nil => rfl
  | cons c l => rw [List.dropWhile_cons_of_neg (by rw [h c rfl]; exact Bool.false_ne_true)]

/-- 両端が空白でない文字列は、trim で変わらない。 -/
theorem trim_eq_self_of_ends {s : String} (hfirst : ∀ c, s.toList.head? = some c → isWhitespace c = false)
    (hlast : ∀ c, s.toList.getLast? = some c → isWhitespace c = false) : trim s = s := by
  unfold trim
  rw [dropWhile_eq_self_of_head hfirst, dropWhile_eq_self_of_head, List.reverse_reverse,
    String.ofList_toList]
  intro c hc
  rw [List.head?_reverse] at hc
  exact hlast c hc

/-- 空白を含まない文字列は、trim で変わらない。 -/
theorem trim_eq_self {s : String} (h : ∀ c ∈ s.toList, isWhitespace c = false) : trim s = s :=
  trim_eq_self_of_ends (fun c hc => h c (List.mem_of_head? hc)) fun c hc =>
    h c (List.mem_of_getLast? hc)

/-- trim した文字列は空白で始まらない。 -/
theorem head_trim {s : String} {c : Char} (h : (trim s).toList.head? = some c) :
    isWhitespace c = false := by
  unfold trim at h
  rw [String.toList_ofList] at h
  obtain ⟨tail, htail⟩ := List.rdropWhile_prefix isWhitespace (l := s.toList.dropWhile isWhitespace)
  have hhead : (s.toList.dropWhile isWhitespace).head? = some c := by
    rw [← htail, List.head?_append]
    show Option.or (List.reverse _).head? _ = _
    rw [h]
    rfl
  exact Bool.eq_false_iff.mpr fun hc => by
    have := List.head?_dropWhile_not isWhitespace s.toList
    rw [hhead] at this
    exact absurd hc (by simpa using this)

/-! ## 行 -/

theorem splitInclusive_line {line : List Char} (h : '\n' ∉ line) (rest : List Char) :
    splitInclusive (line ++ '\n' :: rest) = (line ++ ['\n']) :: splitInclusive rest := by
  induction line with
  | nil => rfl
  | cons c line ih =>
    rw [List.mem_cons, not_or] at h
    rw [List.cons_append, splitInclusive, if_neg (Ne.symm h.1), ih h.2]
    rfl

theorem stripLineEnd_line {line : List Char} (h : line.getLast? ≠ some '\r') :
    stripLineEnd (line ++ ['\n']) = line := by
  unfold stripLineEnd
  rw [if_pos List.getLast?_concat, List.dropLast_concat, if_neg h]

/-- 改行を付けて並べた行は、そのまま読み戻る。 -/
theorem lines_flatMap {α : Type} {line : α → List Char} {l : List α}
    (hfeed : ∀ a ∈ l, '\n' ∉ line a) (hreturn : ∀ a ∈ l, (line a).getLast? ≠ some '\r') :
    lines (String.ofList (l.flatMap fun a => line a ++ ['\n'])) =
      l.map fun a => String.ofList (line a) := by
  unfold lines
  rw [String.toList_ofList]
  induction l with
  | nil => rfl
  | cons a l ih =>
    rw [List.flatMap_cons, List.append_assoc, List.singleton_append,
      splitInclusive_line (hfeed a List.mem_cons_self), List.map_cons, List.map_cons,
      stripLineEnd_line (hreturn a List.mem_cons_self),
      ih (fun b hb => hfeed b (List.mem_cons_of_mem _ hb)) fun b hb =>
        hreturn b (List.mem_cons_of_mem _ hb)]

/-! ## 区切り -/

theorem splitOnce_append {p : Char → Bool} {first rest : String} {c : Char}
    (h : ∀ d ∈ first.toList, p d = false) (hc : p c = true) :
    splitOnce p (String.ofList (first.toList ++ c :: rest.toList)) = some (first, rest) := by
  have hnot : ∀ d ∈ first.toList, (!p d) = true := fun d hd => by rw [h d hd]; rfl
  unfold splitOnce
  rw [String.toList_ofList, List.dropWhile_append_of_pos hnot,
    List.dropWhile_cons_of_neg (by rw [hc]; exact Bool.false_ne_true)]
  rw [List.takeWhile_append_of_pos hnot,
    List.takeWhile_cons_of_neg (by rw [hc]; exact Bool.false_ne_true), List.append_nil,
    String.ofList_toList]
  exact congrArg (fun r => some (first, r)) String.ofList_toList

/-- 区切りの前には区切りの文字が無い。 -/
theorem splitOnce_fst {p : Char → Bool} {s first rest : String}
    (h : splitOnce p s = some (first, rest)) :
    first.toList = s.toList.takeWhile fun c => !p c := by
  unfold splitOnce at h
  split at h
  · cases h
  · cases h
    exact String.toList_ofList

end Text
