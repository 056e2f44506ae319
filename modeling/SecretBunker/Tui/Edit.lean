import SecretBunker.Tui

/-!
# 変えない編集

secret を編集の form に開き、打った文字をすべて消してから送る。値は text の欄を通って byte に戻るので、
UTF-8 として読める値だけがそのまま送り返される。読めない byte は欄に入るときに U+FFFD に変わり、
触らなくても別の値が送られる。
-/

namespace SecretBunker

namespace Tui

open Utf8

/-- key の列を打ち終えたとき、打って残っている文字の数。もとの値に手を付けるか、form を出れば `none`。 -/
def typed : List Key → Nat → Option Nat
  | [], n => some n
  | .char _ :: keys, n => typed keys (n + 1)
  | .backspace :: keys, n + 1 => typed keys n
  | .backspace :: _, 0 => none
  | .enter :: _, _ => none
  | .esc :: _, _ => none
  | _ :: keys, n => typed keys n

/-- secret の上で `e` を押すと form が開く状態。 -/
structure Opening (server : List Exchange → Request → Except String Response) (app : App)
    (group name : String) (value : Bytes) (version : UInt64) : Prop where
  running : app.quit = false
  normal : app.mode = .normal
  focused : app.focus = .secrets
  selected : app.selectedGroup.map GroupInfo.name = some group
  pointed : (app.secrets[app.ssel]?).map Prod.fst = some name
  answered : server app.sent (.get group name) = .ok (.secret value version.toNat)

/-- key が欄の text にすること。 -/
def edited (text : String) : Key → String
  | .char c => text.push c
  | .backspace => pop text
  | _ => text

theorem pop_of_toList {s : String} {l : List Char} {c : Char} (h : s.toList = l ++ [c]) :
    (pop s).toList = l := by
  rw [pop, String.toList_ofList, h, List.dropLast_concat]

namespace App

variable {server : List Exchange → Request → Except String Response}

/-- 編集の form を開いた状態。 -/
def editing (app : App) (name : String) (version : Nat) (text : String) : App :=
  { app with mode := .form (editForm name version text) }

/-- 欄が一つなので、焦点は動かない。 -/
theorem editing_focusOn (app : App) (name : String) (version : Nat) (text : String) (n : Nat) :
    { app with mode := .form ((editForm name version text).focusOn n) } =
      app.editing name version text := by
  simp only [editing, editForm, Form.new, Form.focusOn, List.length_singleton, Nat.mod_one]

theorem step_form {app : App} (hquit : app.quit = false) (name : String) (version : Nat)
    (text : String) (key : Key) :
    (app.editing name version text).step server key =
      (app.editing name version text).onKeyForm server (editForm name version text) key := by
  show (if app.quit then _ else _) = _
  rw [hquit]
  rfl

/-- form を出ない key は、欄の text だけを書き換える。 -/
theorem step_editing {app : App} (hquit : app.quit = false) (name : String) (version : Nat)
    (text : String) {key : Key} (henter : key ≠ .enter) (hesc : key ≠ .esc) :
    (app.editing name version text).step server key =
      app.editing name version (edited text key) := by
  rw [step_form hquit]
  cases key with
  | enter => exact absurd rfl henter
  | esc => exact absurd rfl hesc
  | tab => exact editing_focusOn ..
  | up => exact editing_focusOn ..
  | down => exact editing_focusOn ..
  | char c => rfl
  | backspace => rfl
  | left => rfl
  | right => rfl
  | other => rfl

/-- 打った文字は末尾に積まれ、消す key はそれを上から除く。ほかの key は欄を変えない。 -/
theorem exec_typed {app : App} {name : String} {version : Nat} {current : List Char}
    (hquit : app.quit = false) {keys : List Key} {stack : List Char} {text : String} {n : Nat}
    (htext : text.toList = current ++ stack) (hkeys : typed keys stack.length = some n) :
    ∃ text' stack', keys.foldl (step server) (app.editing name version text) =
        app.editing name version text' ∧
      text'.toList = current ++ stack' ∧ stack'.length = n := by
  induction keys generalizing stack text with
  | nil =>
    cases hkeys
    exact ⟨text, stack, rfl, htext, rfl⟩
  | cons key keys ih =>
    have henter : key ≠ .enter := by
      rintro rfl
      cases hkeys
    have hesc : key ≠ .esc := by
      rintro rfl
      cases hkeys
    rw [List.foldl_cons, step_editing hquit name version text henter hesc]
    cases key with
    | char c =>
      refine @ih (stack ++ [c]) (text.push c) ?_ ?_
      · rw [String.toList_push, htext, List.append_assoc]
      · rw [List.length_append]
        exact hkeys
    | backspace =>
      rcases stack.eq_nil_or_concat with rfl | ⟨rest, c, rfl⟩
      · cases hkeys
      · rw [List.concat_eq_append, ← List.append_assoc] at htext
        rw [List.length_concat] at hkeys
        exact @ih rest (pop text) (pop_of_toList htext) hkeys
    | enter => exact absurd rfl henter
    | esc => exact absurd rfl hesc
    | _ => exact ih htext hkeys

/-- Enter は、欄の text の byte を、開いたときの版を前提に置く。 -/
theorem sent_step_enter {app : App} (hquit : app.quit = false) {group : GroupInfo}
    (hgroup : app.selectedGroup = some group) (name : String) (version : Nat) (text : String) :
    ∃ put list, ((app.editing name version text).step server .enter).sent =
      ⟨.list group.name, list⟩ ::
        ⟨.put group.name name (asBytes text) (UInt64.ofNat version), put⟩ :: app.sent := by
  let left : App := { app with mode := .normal }
  let request := Request.put group.name name (asBytes text) (UInt64.ofNat version)
  have hsubmit : (app.editing name version text).step server .enter =
      refreshSecrets server (left.reqShow server request) := by
    have hleft : left.selectedGroup = some group := hgroup
    rw [step_form hquit]
    show submitForm server left (editForm name version text) = _
    simp only [submitForm, editForm, Form.new, hleft]
    rfl
  obtain ⟨status, hshow⟩ := left.reqShow_eq server request
  have hgroup' : (left.reqShow server request).selectedGroup = some group := by
    rw [hshow]
    exact hgroup
  obtain ⟨ssel, status', hrefresh⟩ := refreshSecrets_some server hgroup'
  rw [hsubmit, hrefresh, hshow]
  exact ⟨_, _, rfl⟩

theorem step_opens {app : App} {group : GroupInfo} {name : String} {value : Bytes}
    {version : UInt64} (hopen : Opening server app group.name name value version)
    (hgroup : app.selectedGroup = some group) :
    app.step server (.char 'e') =
      editing { app with sent := ⟨.get group.name name, .ok (.secret value version.toNat)⟩ :: app.sent }
        name version.toNat (fromUtf8Lossy value) := by
  obtain ⟨⟨_, _⟩, hpointed, rfl⟩ := Option.map_eq_some_iff.mp hopen.pointed
  have hkey : app.step server (.char 'e') = app.editSelectedSecret server := by
    unfold step onKey
    rw [hopen.running, hopen.normal]
    exact if_pos hopen.focused
  rw [hkey]
  unfold editSelectedSecret openSelectedSecret
  simp only [hgroup, hpointed, req, hopen.answered]
  rfl

/-- 打った文字をすべて消して送るまでのやり取り。 -/
theorem sent_unchanged_edit {app : App} {group name : String} {value : Bytes} {version : UInt64}
    (hopen : Opening server app group name value version) {keys : List Key}
    (hkeys : typed keys 0 = some 0) :
    ∃ put list, ((Key.char 'e' :: keys ++ [Key.enter]).foldl (step server) app).sent =
      ⟨.list group, list⟩ :: ⟨.put group name (asBytes (fromUtf8Lossy value)) version, put⟩ ::
        ⟨.get group name, .ok (.secret value version.toNat)⟩ :: app.sent := by
  obtain ⟨info, hinfo, rfl⟩ := Option.map_eq_some_iff.mp hopen.selected
  let opened : App := { app with
    sent := ⟨.get info.name name, .ok (.secret value version.toNat)⟩ :: app.sent }
  have hquit : opened.quit = false := hopen.running
  have hgroup : opened.selectedGroup = some info := hinfo
  obtain ⟨text, stack, hexec, htext, hstack⟩ := exec_typed hquit
    (List.append_nil (fromUtf8Lossy value).toList).symm hkeys
  have hsame : text = fromUtf8Lossy value := by
    rw [List.length_eq_zero_iff.mp hstack, List.append_nil] at htext
    exact String.toList_inj.mp htext
  obtain ⟨put, list, hsent⟩ := sent_step_enter hquit hgroup name version.toNat text
  rw [List.cons_append, List.foldl_cons, step_opens hopen hinfo, List.foldl_append, hexec,
    List.foldl_cons, List.foldl_nil, hsent, hsame, UInt64.ofNat_toNat]
  exact ⟨put, list, rfl⟩

end App

/-- 文字列を UTF-8 で書いた byte の列。 -/
def IsUtf8 (value : Bytes) : Prop := ∃ text : String, asBytes text = value

/-- 置き換えが要らないのは、UTF-8 の byte の列だけである。 -/
theorem asBytes_fromUtf8Lossy {value : Bytes} :
    asBytes (fromUtf8Lossy value) = value ↔ IsUtf8 value := by
  constructor
  · intro h
    exact ⟨_, h⟩
  · rintro ⟨text, rfl⟩
    exact congrArg asBytes (fromUtf8Lossy_encode text)

/--
**変えない編集は値を保つ。**

secret の上で `e` を押し、server が値と版を返したとする。打った文字をすべて消してから Enter を押すまでに
送る Put が、その secret に、返された値を、返された版を前提に置くのは、値が UTF-8 のときちょうどである。
-/
theorem unchanged_edit_keeps_value (server : List Exchange → Request → Except String Response)
    {app : App} {group name : String} {value : Bytes} {version : UInt64}
    (hopen : Opening server app group name value version) {keys : List Key}
    (hkeys : typed keys 0 = some 0) :
    ∃ fresh, ((Key.char 'e' :: keys ++ [Key.enter]).foldl (App.step server) app).sent =
        fresh ++ app.sent ∧
      ((∀ exchange ∈ fresh, ∀ g n v e, exchange.request = .put g n v e →
        g = group ∧ n = name ∧ v = value ∧ e = version) ↔ IsUtf8 value) := by
  obtain ⟨put, list, hsent⟩ := App.sent_unchanged_edit hopen hkeys
  refine ⟨[⟨.list group, list⟩, ⟨.put group name (asBytes (fromUtf8Lossy value)) version, put⟩,
    ⟨.get group name, .ok (.secret value version.toNat)⟩], hsent, ?_⟩
  rw [← asBytes_fromUtf8Lossy]
  constructor
  · intro h
    exact (h _ (List.mem_cons_of_mem _ List.mem_cons_self) _ _ _ _ rfl).2.2.1
  · intro hvalue exchange hexchange g n v e hput
    rcases List.mem_cons.mp hexchange with rfl | hexchange
    · cases hput
    · rcases List.mem_cons.mp hexchange with rfl | hexchange
      · cases hput
        exact ⟨rfl, rfl, hvalue, rfl⟩
      · rw [List.mem_singleton.mp hexchange] at hput
        cases hput

/-- group `g` に secret `x` が一つある server。 -/
def sampleServer (value : Bytes) (_ : List Exchange) : Request → Except String Response
  | .listGroups => .ok (.groups false [⟨"g", 3⟩])
  | .list _ => .ok (.names [("x", 1)])
  | .get _ _ => .ok (.secret value 1)
  | _ => .ok (.version 2)

/-- 一文字を打って消す。 -/
theorem unchanged_edit_keeps_value_sample :
    ∃ fresh, ((Key.char 'e' :: [.char 'z', .backspace] ++ [Key.enter]).foldl
        (App.step (sampleServer [0x61, 0x0a])) (App.run (sampleServer [0x61, 0x0a]) [.tab])).sent =
          fresh ++ (App.run (sampleServer [0x61, 0x0a]) [.tab]).sent ∧
      ∀ exchange ∈ fresh, ∀ g n v e, exchange.request = .put g n v e →
        g = "g" ∧ n = "x" ∧ v = [0x61, 0x0a] ∧ e = 1 := by
  have hopen : Opening (sampleServer [0x61, 0x0a]) (App.run (sampleServer [0x61, 0x0a]) [.tab])
      "g" "x" [0x61, 0x0a] 1 := ⟨rfl, rfl, rfl, rfl, rfl, rfl⟩
  have hkeys : typed [.char 'z', .backspace] 0 = some 0 := rfl
  obtain ⟨fresh, hsent, hputs⟩ := unchanged_edit_keeps_value _ hopen hkeys
  exact ⟨fresh, hsent, hputs.mpr ⟨"a\n", by decide +kernel⟩⟩

/-- UTF-8 でない値は、form を開いて送るだけで別の値に変わる。 -/
theorem untouched_edit_rewrites_bytes :
    (App.run (sampleServer [0xff]) [.tab, .char 'e', .enter]).sent.take 3 =
      [⟨.list "g", .ok (.names [("x", 1)])⟩,
        ⟨.put "g" "x" [0xef, 0xbf, 0xbd] 1, .ok (.version 2)⟩,
        ⟨.get "g" "x", .ok (.secret [0xff] 1)⟩] := by
  decide +kernel

end Tui

end SecretBunker
