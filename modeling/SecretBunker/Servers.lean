import SecretBunker.Crypto.Plain
import SecretBunker.Lib.Table
import SecretBunker.Lib.Text

/-!
# server の別名

`src/servers.rs`。`--server` に渡す別名を、一行に一組ずつ text file に置く。file は手で書いてよく、
`#` の行、読めない行、同じ名前の行が混じりうる。書き直すたびに、読めた組だけが名前の順に残る。

file は `Option String` で表し、無ければ `none` とする。読み書きの失敗は扱わない。
-/

namespace SecretBunker

open Relational Text

namespace Servers

/-- 名前を言わないときに引く alias。 -/
def defaultAlias : String := "default"

variable (prim : Primitives)

/-- 一行の組。空行、`#` の行、組でない行、id の読めない行は飛ばす。 -/
def parseLine (line : String) : Option (String × EndpointId) :=
  let line := trim line
  if line = "" ∨ line.toList.head? = some '#' then none
  else
    (splitOnce isWhitespace line).bind fun (name, id) =>
      (prim.parseEndpointId (trim id)).map fun id => (name, id)

/-- file の中身から読める行を集める。 -/
def parse (contents : String) : List (String × EndpointId) :=
  (lines contents).filterMap (parseLine prim)

/-- file が無ければ、alias は一つも無い。 -/
def loadAt : Option String → List (String × EndpointId)
  | none => []
  | some contents => parse prim contents

/-- 書き出す一行。 -/
def formatLine (entry : String × EndpointId) : List Char :=
  entry.1.toList ++ ' ' :: entry.2.text.toList

/-- 書き出す file の中身。 -/
def storeAt (entries : List (String × EndpointId)) : String :=
  String.ofList (entries.flatMap fun entry => formatLine entry ++ ['\n'])

/-- 最初に当たった行の id。 -/
def lookup (entries : List (String × EndpointId)) (name : String) : Option EndpointId :=
  (entries.find? fun entry => entry.1 == name).map Prod.snd

/-- 名前の一致する最初の組の id を書き換える。 -/
def replaceFirst (name : String) (id : EndpointId) :
    List (String × EndpointId) → List (String × EndpointId)
  | [] => []
  | entry :: rest =>
    if entry.1 = name then (entry.1, id) :: rest else entry :: replaceFirst name id rest

/-- `server add`。書き換えた file の中身を返す。 -/
def addAt (file : Option String) (name : String) (id : EndpointId) (force : Bool) :
    Except String String :=
  if name = "" then .error "alias must not be empty"
  else if name.toList.any isWhitespace then .error "alias must not contain whitespace"
  else if (prim.parseEndpointId name).isSome then
    .error ("'" ++ name ++ "' parses as an EndpointId; that would make lookups ambiguous")
  else
    match lookup (loadAt prim file) name with
    | some current =>
      if force then .ok (storeAt (replaceFirst name id (loadAt prim file)))
      else
        .error ("alias '" ++ name ++ "' already exists (currently " ++ current.text ++
          "); use --force to replace")
    | none => .ok (storeAt (sortOn Prod.fst (loadAt prim file ++ [(name, id)])))

/-- 名前の組をすべて消す。無ければ false で、file は元のままである。 -/
def removeAt (file : Option String) (name : String) : Bool × Option String :=
  let entries := loadAt prim file
  let kept := entries.filter fun entry => entry.1 != name
  if kept.length = entries.length then (false, file) else (true, some (storeAt kept))

/-- 別名の引き方。EndpointId として読めるものは、別名より先にそのまま使う。 -/
def resolveIn (aliases : String → Option EndpointId) : Option String → Except String EndpointId
  | some server =>
    match prim.parseEndpointId server with
    | some id => .ok id
    | none =>
      match aliases server with
      | some id => .ok id
      | none =>
        .error ("'" ++ server ++ "' is neither an EndpointId nor a known alias (see `server ls`)")
  | none =>
    match aliases defaultAlias with
    | some id => .ok id
    | none =>
      .error ("no --server given and no '" ++ defaultAlias ++
        "' alias configured (add one with `server add " ++ defaultAlias ++ " <endpoint-id>`)")

/-- file の alias で server の名前を引く。 -/
def resolveAt (file : Option String) (server : Option String) : Except String EndpointId :=
  resolveIn prim (lookup (loadAt prim file)) server

/-! ## 操作の列 -/

/-- file を書き換える command。 -/
inductive Op where
  | add (name : String) (id : EndpointId) (force : Bool)
  | remove (name : String)

/-- 成功した操作の後の file。 -/
def Op.exec (file : Option String) : Op → Option (Option String)
  | .add name id force => (addAt prim file name id force).toOption.map some
  | .remove name =>
    match removeAt prim file name with
    | (true, file) => some file
    | (false, _) => none

/-- command の列。どれかが断られれば `none`。 -/
def Op.run (file : Option String) (ops : List Op) : Option (Option String) :=
  ops.foldlM (Op.exec prim) file

/-- 操作が写像にすること。 -/
def Op.effect (aliases : String → Option EndpointId) : Op → String → Option EndpointId
  | .add name id _ => Function.update aliases name (some id)
  | .remove name => Function.update aliases name none

/-! ## 書いた file を読み戻す -/

/-- id の文字列は、空白を含まず、読み戻せる。 -/
structure Textual : Prop where
  unspaced : ∀ s id, prim.parseEndpointId s = some id → ∀ c ∈ id.text.toList, isWhitespace c = false
  parsed : ∀ s id, prim.parseEndpointId s = some id → prim.parseEndpointId id.text = some id

/-- 一行に書いて読み戻せる名前。 -/
structure Named (name : String) : Prop where
  nonempty : name ≠ ""
  unspaced : ∀ c ∈ name.toList, isWhitespace c = false
  uncommented : name.toList.head? ≠ some '#'

/-- 書き出しても読み戻せる行。 -/
structure Writable (entry : String × EndpointId) : Prop where
  named : Named entry.1
  valid : prim.parseEndpointId entry.2.text = some entry.2

variable {prim} {entry : String × EndpointId} {file : Option String} {name : String}
  {id : EndpointId} {entries : List (String × EndpointId)}

/-- 読めた組は、書けば読み戻せる組である。 -/
theorem writable_of_parseLine (htext : Textual prim) {line : String}
    (h : parseLine prim line = some entry) : Writable prim entry := by
  unfold parseLine at h
  simp only at h
  split at h
  · cases h
  · next hline =>
    rw [not_or] at hline
    obtain ⟨⟨name, rest⟩, hsplit, h⟩ := Option.bind_eq_some_iff.mp h
    obtain ⟨id, hid, rfl⟩ := Option.map_eq_some_iff.mp h
    have hname := splitOnce_fst hsplit
    -- trim した行は空白で始まらないので、名前の頭は行の頭である
    have hhead : name.toList.head? = (trim line).toList.head? := by
      rw [hname]
      cases hl : (trim line).toList with
      | nil => rfl
      | cons c l =>
        have hc : isWhitespace c = false := head_trim (by rw [hl]; rfl)
        rw [List.takeWhile_cons_of_pos (by rw [hc]; rfl)]
        rfl
    refine ⟨⟨?_, ?_, ?_⟩, htext.parsed _ _ hid⟩
    · rintro rfl
      have hnil : (trim line).toList = [] := List.head?_eq_none_iff.mp hhead.symm
      exact hline.1 (String.toList_inj.mp hnil)
    · intro c hc
      rw [hname] at hc
      have := List.mem_takeWhile_imp hc
      exact Bool.not_eq_true' _ ▸ this
    · rw [hhead]
      exact hline.2

theorem writable_of_mem_loadAt (htext : Textual prim) (h : entry ∈ loadAt prim file) :
    Writable prim entry := by
  cases file with
  | none => cases h
  | some contents =>
    obtain ⟨line, -, hline⟩ := List.mem_filterMap.mp h
    exact writable_of_parseLine htext hline

/-- `#` で始まる名前は、どの file からも引けない。 -/
theorem lookup_comment (htext : Textual prim) (file : Option String)
    (h : name.toList.head? = some '#') : lookup (loadAt prim file) name = none := by
  unfold lookup
  rw [Option.map_eq_none_iff, List.find?_eq_none]
  intro entry hentry hname
  refine (writable_of_mem_loadAt htext hentry).named.uncommented ?_
  rw [beq_iff_eq.mp hname, h]

/-- 書ける組の一行には、間の空白のほかに空白が無い。 -/
theorem mem_formatLine (htext : Textual prim) (h : Writable prim entry) {c : Char}
    (hc : c ∈ formatLine entry) : c = ' ' ∨ isWhitespace c = false := by
  rcases List.mem_append.mp hc with hc | hc
  · exact .inr (h.named.unspaced c hc)
  · rcases List.mem_cons.mp hc with rfl | hc
    · exact .inl rfl
    · exact .inr (htext.unspaced _ _ h.valid c hc)

theorem text_ne_nil (laws : prim.Lawful) (h : prim.parseEndpointId id.text = some id) :
    id.text.toList ≠ [] := by
  intro hnil
  have hlen := laws.endpoint_text _ _ h
  rw [← String.length_toList, hnil] at hlen
  cases hlen

/-- 書いた行は読み戻せる。 -/
theorem parseLine_formatLine (laws : prim.Lawful) (htext : Textual prim) (h : Writable prim entry) :
    parseLine prim (String.ofList (formatLine entry)) = some entry := by
  obtain ⟨name, id⟩ := entry
  have hname : name.toList ≠ [] := fun hnil => h.named.nonempty (String.toList_inj.mp hnil)
  have hid := text_ne_nil laws h.valid
  have hhead : (formatLine (name, id)).head? = name.toList.head? := by
    unfold formatLine
    rw [List.head?_append_of_ne_nil _ hname]
  -- 行の頭は名前、末尾は id で、trim の落とすものは無い
  have htrim : trim (String.ofList (formatLine (name, id))) =
      String.ofList (formatLine (name, id)) := by
    refine trim_eq_self_of_ends (fun c hc => ?_) fun c hc => ?_
    · rw [String.toList_ofList, hhead] at hc
      exact h.named.unspaced c (List.mem_of_head? hc)
    · rw [String.toList_ofList, formatLine,
        List.getLast?_append_of_ne_nil _ (List.cons_ne_nil _ _),
        List.getLast?_cons_of_ne_nil hid] at hc
      exact htext.unspaced _ _ h.valid c (List.mem_of_getLast? hc)
  unfold parseLine
  simp only [htrim]
  rw [if_neg]
  · rw [formatLine, splitOnce_append h.named.unspaced (by decide)]
    simp only [Option.bind_some]
    rw [trim_eq_self (htext.unspaced _ _ h.valid), h.valid]
    rfl
  · rw [String.toList_ofList, hhead, not_or]
    refine ⟨fun hempty => hname ?_, h.named.uncommented⟩
    have := congrArg String.toList hempty
    rw [String.toList_ofList] at this
    exact (List.append_eq_nil_iff.mp this).1

/-- **書き直した file は、書いた組のとおりに読める。** -/
theorem parse_storeAt (laws : prim.Lawful) (htext : Textual prim)
    (h : ∀ entry ∈ entries, Writable prim entry) : parse prim (storeAt entries) = entries := by
  unfold parse storeAt
  rw [lines_flatMap, List.filterMap_map]
  · have hlines : ∀ entry ∈ entries,
        (parseLine prim ∘ fun entry => String.ofList (formatLine entry)) entry = some entry := by
      intro entry hentry
      rw [Function.comp_apply, parseLine_formatLine laws htext (h entry hentry)]
    rw [List.filterMap_congr hlines, List.filterMap_some]
  -- 行の中の空白は間の一つだけで、改行も復帰も現れない
  · intro entry hentry hfeed
    rcases mem_formatLine htext (h entry hentry) hfeed with hc | hc
    · exact absurd hc (by decide)
    · exact absurd hc (by decide)
  · intro entry hentry hreturn
    rcases mem_formatLine htext (h entry hentry) (List.mem_of_getLast? hreturn) with hc | hc
    · exact absurd hc (by decide)
    · exact absurd hc (by decide)

/-! ## 写像としての file -/

theorem lookup_eq_head? (entries : List (String × EndpointId)) (name : String) :
    lookup entries name = (entries.filter fun entry => entry.1 = name).head?.map Prod.snd := by
  rw [List.head?_filter]
  rfl

theorem lookup_cons (entry : String × EndpointId) (entries : List (String × EndpointId))
    (name : String) :
    lookup (entry :: entries) name = if entry.1 = name then some entry.2 else lookup entries name := by
  unfold lookup
  by_cases h : entry.1 = name
  · rw [if_pos h, List.find?_cons_of_pos (by simpa using h)]
    rfl
  · rw [if_neg h, List.find?_cons_of_neg (by simpa using h)]

theorem lookup_replaceFirst (h : (lookup entries name).isSome) :
    lookup (replaceFirst name id entries) = Function.update (lookup entries) name (some id) := by
  funext other
  induction entries with
  | nil => cases h
  | cons entry entries ih =>
    unfold replaceFirst
    by_cases hentry : entry.1 = name
    · rw [if_pos hentry, lookup_cons]
      by_cases hother : other = name
      · rw [if_pos (hentry.trans hother.symm), hother, Function.update_self]
      -- 後ろに同じ名前の行が残っていても、引くのは先頭のものである
      · rw [if_neg (hentry ▸ Ne.symm hother), Function.update_of_ne hother, lookup_cons,
          if_neg (hentry ▸ Ne.symm hother)]
    · rw [lookup_cons, if_neg hentry] at h
      rw [if_neg hentry, lookup_cons, ih h]
      by_cases hother : other = name
      · rw [hother, if_neg hentry, Function.update_self, Function.update_self]
      · rw [Function.update_of_ne hother, Function.update_of_ne hother, lookup_cons]

/-- 末尾に足して整列しても、同じ名前の組の順序は変わらない。 -/
theorem lookup_sortOn_concat (h : lookup entries name = none) :
    lookup (sortOn Prod.fst (entries ++ [(name, id)])) =
      Function.update (lookup entries) name (some id) := by
  funext other
  rw [lookup_eq_head?, filter_sortOn, List.filter_append, List.head?_append, Option.map_or,
    ← lookup_eq_head?]
  by_cases hother : other = name
  · rw [hother, h, Function.update_self, List.filter_cons_of_pos (by simp)]
    rfl
  · rw [Function.update_of_ne hother, List.filter_cons_of_neg (by simpa using Ne.symm hother)]
    exact Option.or_none

theorem lookup_filter_ne (entries : List (String × EndpointId)) (name : String) :
    lookup (entries.filter fun entry => entry.1 != name) =
      Function.update (lookup entries) name none := by
  funext other
  rw [lookup_eq_head?, List.filter_filter]
  by_cases hother : other = name
  · rw [hother, Function.update_self, List.filter_eq_nil_iff.mpr]
    · rfl
    · simp
  · rw [Function.update_of_ne hother, lookup_eq_head?]
    congr 2
    refine List.filter_congr fun entry _ => ?_
    by_cases hentry : entry.1 = other
    · simp [hentry, hother]
    · simp [hentry]

theorem mem_replaceFirst (h : entry ∈ replaceFirst name id entries) :
    entry ∈ entries ∨ entry = (name, id) := by
  induction entries with
  | nil => cases h
  | cons first entries ih =>
    unfold replaceFirst at h
    split at h
    · next hfirst =>
      rcases List.mem_cons.mp h with rfl | h
      · exact .inr (by rw [hfirst])
      · exact .inl (List.mem_cons_of_mem _ h)
    · rcases List.mem_cons.mp h with rfl | h
      · exact .inl List.mem_cons_self
      · exact (ih h).imp_left (List.mem_cons_of_mem _)

/-- `addAt` は、EndpointId として読める名前を受け付けない。 -/
theorem parse_addAt {force : Bool} {contents : String}
    (h : addAt prim file name id force = .ok contents) : prim.parseEndpointId name = none := by
  unfold addAt at h
  split at h
  · cases h
  · split at h
    · cases h
    · split at h
      · cases h
      · next hparse => simpa using hparse

/-- `addAt` が書いたのは、名前だけを書き換えた写像である。 -/
theorem lookup_addAt (laws : prim.Lawful) (htext : Textual prim) {force : Bool}
    {contents : String} (hid : prim.parseEndpointId id.text = some id)
    (hname : name.toList.head? ≠ some '#') (h : addAt prim file name id force = .ok contents) :
    lookup (loadAt prim (some contents)) =
      Function.update (lookup (loadAt prim file)) name (some id) := by
  unfold addAt at h
  split at h
  · cases h
  · next hempty =>
    split at h
    · cases h
    · next hspace =>
      split at h
      · cases h
      · have hwritable : Writable prim (name, id) := by
          refine ⟨⟨hempty, fun c hc => ?_, hname⟩, hid⟩
          exact Bool.eq_false_iff.mpr fun hc' => hspace (List.any_eq_true.mpr ⟨c, hc, hc'⟩)
        split at h
        · next current hcurrent =>
          split at h
          · cases h
            rw [loadAt, parse_storeAt laws htext, lookup_replaceFirst (by rw [hcurrent]; rfl)]
            intro entry hentry
            rcases mem_replaceFirst hentry with hentry | rfl
            · exact writable_of_mem_loadAt htext hentry
            · exact hwritable
          · cases h
        · next hnone =>
          cases h
          rw [loadAt, parse_storeAt laws htext, lookup_sortOn_concat hnone]
          intro entry hentry
          rcases List.mem_append.mp (mem_sortOn.mp hentry) with hentry | hentry
          · exact writable_of_mem_loadAt htext hentry
          · rw [List.mem_singleton.mp hentry]
            exact hwritable

/-- `removeAt` が書いたのは、名前だけを除いた写像である。 -/
theorem lookup_removeAt (laws : prim.Lawful) (htext : Textual prim) {written : Option String}
    (h : removeAt prim file name = (true, written)) :
    lookup (loadAt prim written) = Function.update (lookup (loadAt prim file)) name none := by
  unfold removeAt at h
  simp only at h
  split at h
  · cases h
  · cases h
    rw [loadAt, parse_storeAt laws htext, lookup_filter_ne]
    exact fun entry hentry => writable_of_mem_loadAt htext (List.mem_of_mem_filter hentry)

/-- 名前の写像を一箇所だけ変えても、ほかの名前の引き方は変わらない。 -/
theorem resolveIn_update_of_ne (aliases : String → Option EndpointId) (value : Option EndpointId)
    {server : Option String} (h : server.getD defaultAlias ≠ name) :
    resolveIn prim (Function.update aliases name value) server = resolveIn prim aliases server := by
  cases server with
  | none =>
    rw [Option.getD_none] at h
    simp only [resolveIn, Function.update_of_ne h]
  | some server =>
    rw [Option.getD_some] at h
    simp only [resolveIn, Function.update_of_ne h]

/-- 操作の列が守るべきこと。id は読み戻せるもので、足す名前は `#` で始まらない。 -/
def Op.Accepted (prim : Primitives) : Op → Prop
  | .add name id _ => prim.parseEndpointId id.text = some id ∧ name.toList.head? ≠ some '#'
  | .remove _ => True

/-- file の操作は、写像の操作である。 -/
theorem lookup_exec (laws : prim.Lawful) (htext : Textual prim) {written : Option String}
    {op : Op} (hop : op.Accepted prim) (h : op.exec prim file = some written) :
    lookup (loadAt prim written) = op.effect (lookup (loadAt prim file)) := by
  cases op with
  | add name id force =>
    obtain ⟨contents, hcontents, rfl⟩ := Option.map_eq_some_iff.mp h
    cases hadd : addAt prim file name id force with
    | error e => rw [hadd] at hcontents; cases hcontents
    | ok contents' =>
      rw [hadd] at hcontents
      cases hcontents
      exact lookup_addAt laws htext hop.1 hop.2 hadd
  | remove name =>
    simp only [Op.exec] at h
    split at h
    · next hremove =>
      cases h
      exact lookup_removeAt laws htext hremove
    · cases h

theorem lookup_run (laws : prim.Lawful) (htext : Textual prim) {written : Option String}
    {ops : List Op} (hops : ∀ op ∈ ops, op.Accepted prim)
    (h : Op.run prim file ops = some written) :
    lookup (loadAt prim written) = ops.foldl Op.effect (lookup (loadAt prim file)) := by
  induction ops generalizing file with
  | nil => cases h; rfl
  | cons op ops ih =>
    unfold Op.run at h
    rw [List.foldlM_cons] at h
    obtain ⟨next, hnext, hrest⟩ := Option.bind_eq_some_iff.mp h
    rw [ih (fun o ho => hops o (List.mem_cons_of_mem _ ho)) hrest, List.foldl_cons,
      lookup_exec laws htext (hops op List.mem_cons_self) hnext]

/--
**別名の file は、名前から id への写像として振る舞う。**

どのような text の file からでも、成功した `addAt` の後にその名前は足した id に、成功した `removeAt` の
後にその名前は error に解決し、ほかの名前の解決は変わらない。操作を重ねた後の `resolveAt` は、
元の file の写像に同じ操作を施したものを引く。足す名前は `#` で始まらないとする。`#` で始まる名前は、
`addAt` が成功しても解決しない。EndpointId として読める名前は、別名と関わりなくその id に解決する。
-/
theorem aliases_form_map (prim : Primitives) (laws : prim.Lawful) (htext : Textual prim) :
    (∀ (file : Option String) (name : String) (id : EndpointId) (force : Bool) (contents : String),
      prim.parseEndpointId id.text = some id → addAt prim file name id force = .ok contents →
        (resolveAt prim (some contents) (some name) = .ok id ↔ name.toList.head? ≠ some '#') ∧
        (name.toList.head? ≠ some '#' → ∀ server : Option String, server.getD defaultAlias ≠ name →
          resolveAt prim (some contents) server = resolveAt prim file server)) ∧
    (∀ (file written : Option String) (name : String),
      removeAt prim file name = (true, written) →
        (prim.parseEndpointId name = none →
          resolveAt prim written (some name) =
            .error ("'" ++ name ++ "' is neither an EndpointId nor a known alias (see `server ls`)")) ∧
        ∀ server : Option String, server.getD defaultAlias ≠ name →
          resolveAt prim written server = resolveAt prim file server) ∧
    ∀ (file written : Option String) (ops : List Op), (∀ op ∈ ops, op.Accepted prim) →
      Op.run prim file ops = some written →
        resolveAt prim written = resolveIn prim (ops.foldl Op.effect (lookup (loadAt prim file))) := by
  refine ⟨?_, ?_, ?_⟩
  · intro file name id force contents hid hadd
    have hparse := parse_addAt hadd
    unfold resolveAt
    refine ⟨⟨fun hresolve hname => ?_, fun hname => ?_⟩, fun hname server hserver => ?_⟩
    · simp only [resolveIn, hparse, lookup_comment htext (some contents) hname] at hresolve
      cases hresolve
    · rw [lookup_addAt laws htext hid hname hadd]
      unfold resolveIn
      simp only [hparse, Function.update_self]
    · rw [lookup_addAt laws htext hid hname hadd, resolveIn_update_of_ne _ _ hserver]
  · intro file written name hremove
    unfold resolveAt
    rw [lookup_removeAt laws htext hremove]
    refine ⟨fun hparse => ?_, fun server hserver => resolveIn_update_of_ne _ _ hserver⟩
    unfold resolveIn
    simp only [hparse, Function.update_self]
  · intro file written ops hops hrun
    funext server
    unfold resolveAt
    rw [lookup_run laws htext hops hrun]

/-- id の文字列に空白を許さない実装。 -/
def solid : Primitives :=
  { plain with
    parseEndpointId := fun s =>
      if s.length = 64 ∧ s.toList.all (fun c => !isWhitespace c) then some ⟨s⟩ else none }

theorem solid_parse {s : String} (h : solid.parseEndpointId s = some id) :
    id.text = s ∧ s.length = 64 ∧ ∀ c ∈ s.toList, isWhitespace c = false := by
  simp only [solid] at h
  split at h
  · next hs =>
    cases h
    refine ⟨rfl, hs.1, fun c hc => ?_⟩
    exact Bool.not_eq_true' _ ▸ List.all_eq_true.mp hs.2 c hc
  · cases h

theorem solid_lawful : solid.Lawful where
  age_decrypt_own := plain_lawful.age_decrypt_own
  age_decrypt_other := plain_lawful.age_decrypt_other
  parse_public := plain_lawful.parse_public
  parse_parsed := plain_lawful.parse_parsed
  endpoint_text s e h := by
    obtain ⟨htext, hlen, -⟩ := solid_parse h
    rw [htext, hlen]
  aead_roundtrip := plain_lawful.aead_roundtrip

theorem solid_textual : Textual solid where
  unspaced s id h := by
    obtain ⟨htext, -, hspace⟩ := solid_parse h
    rw [htext]
    exact hspace
  parsed s id h := by
    obtain ⟨htext, -, -⟩ := solid_parse h
    rw [htext, h]

/-- 一文字を並べた id。 -/
def sampleId (c : Char) : EndpointId := ⟨String.ofList (List.replicate 64 c)⟩

/-- 手で書かれた、読めない行だけの file。 -/
def sampleFile : String := "# hand-written\nbroken\n"

/-- 同じ名前を二度、二度目は `force` で書く。 -/
def sampleOps : List Op := [.add "prod" (sampleId 'a') false, .add "prod" (sampleId 'b') true]

/-- 読めない行のある file に足し、それを書き換える。 -/
theorem aliases_form_map_sample :
    Op.run solid (some sampleFile) sampleOps = some (some (storeAt [("prod", sampleId 'b')])) ∧
      resolveAt solid (some (storeAt [("prod", sampleId 'b')])) =
        resolveIn solid (sampleOps.foldl Op.effect (lookup (loadAt solid (some sampleFile)))) := by
  have hrun : Op.run solid (some sampleFile) sampleOps =
      some (some (storeAt [("prod", sampleId 'b')])) := by decide +kernel
  refine ⟨hrun, (aliases_form_map solid solid_lawful solid_textual).2.2 _ _ _ ?_ hrun⟩
  intro op hop
  rcases List.mem_cons.mp hop with rfl | hop
  · exact ⟨by decide +kernel, by decide +kernel⟩
  · rw [List.mem_singleton.mp hop]
    exact ⟨by decide +kernel, by decide +kernel⟩

/-- `#` で始まる名前は受け付けられるが、書いた行は comment として読み飛ばされる。 -/
theorem addAt_loses_comment_name :
    ∃ contents, addAt solid none "#prod" (sampleId 'a') false = .ok contents ∧
      resolveAt solid (some contents) (some "#prod") =
        .error "'#prod' is neither an EndpointId nor a known alias (see `server ls`)" := by
  exact ⟨storeAt [("#prod", sampleId 'a')], by decide +kernel, by decide +kernel⟩

end Servers

end SecretBunker
