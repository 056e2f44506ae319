import SecretBunker.Tui

/-!
# 出ている一覧と選択

右の pane の secret は、選ばれた group の List の答えである。group の一覧を読み直すと、同じ位置に別の
group が来ることがあり、そのとき secret の一覧を読み直さないか、読み直しに失敗すれば、前の group の
secret が新しい group の名前の下に残る。

key を押す前の状態と server の答えから、選択の移る先（`App.landing`）が決まる。移る先がいまの group か、
その後に送る List に答えがあるなら、次に送る Get と Delete、編集からの Put は、出ている一覧の secret を、
その一覧の group に向けて名指しする。
-/

namespace SecretBunker

namespace Tui

/-! ## 言葉 -/

/-- 選ばれている group の名前。 -/
def App.selected (app : App) : Option String := app.selectedGroup.map GroupInfo.name

/-- 出ている一覧とその group。断られた List は、出ているものを消す。 -/
def shown : List Exchange → Option (String × List (String × Nat))
  | [] => none
  | ⟨.list group, .ok (.names names)⟩ :: _ => some (group, names)
  | ⟨.list _, .ok .denied⟩ :: _ => none
  | _ :: rest => shown rest

/-- 編集の form か。 -/
def Mode.editing : Mode → Bool
  | .form f =>
    match f.kind with
    | .editSecret .. => true
    | _ => false
  | _ => false

/-- 編集の form と削除の確認が名指ししている secret。 -/
def Mode.secret : Mode → Option String
  | .form f =>
    match f.kind with
    | .editSecret name _ => some name
    | _ => none
  | .confirm (.deleteSecret name _) => some name
  | _ => none

theorem FormKind.secret_leave (kind : FormKind) : kind.leave.secret = none := by
  cases kind <;> rfl

theorem ConfirmAction.secret_leave (action : ConfirmAction) : action.leave.secret = none := by
  cases action <;> rfl

/-- 要求が触れる、すでにある secret。Put は編集の form から送るものだけを数える。 -/
def App.touches (app : App) : Request → Option (String × String)
  | .get group name => some (group, name)
  | .delete group name _ => some (group, name)
  | .put group name _ _ => if app.mode.editing then some (group, name) else none
  | _ => none

/-- それまでのやり取りで出ている一覧が、この group のもので、この secret を含む。 -/
def InView (history : List Exchange) (group name : String) : Prop :=
  ∃ names, shown history = some (group, names) ∧ name ∈ names.map Prod.fst

/-- key を一つ受ける間に送った要求は、どれも、出ている一覧の secret に触れる。 -/
def Coherent (app app' : App) : Prop :=
  ∀ later exchange earlier, app'.sent = later ++ exchange :: earlier →
    app.sent.length ≤ earlier.length →
    ∀ group name, app.touches exchange.request = some (group, name) → InView earlier group name

/-- List への、一覧か拒否の答え。 -/
def Answered (answer : Except String Response) : Prop :=
  answer = .ok .denied ∨ ∃ names, answer = .ok (.names names)

/-! ## 選択の移る先 -/

/-- 選択の移る先。`relists` なら、`sent` までのやり取りに続けて、その group の List を送る。 -/
structure Landing where
  group : Option String
  sent : List Exchange
  relists : Bool

/-- 続けて送った要求とその答えを、やり取りに足す。 -/
def asked (server : List Exchange → Request → Except String Response) (sent : List Exchange)
    (requests : List Request) : List Exchange :=
  requests.foldl (fun sent request => ⟨request, server sent request⟩ :: sent) sent

namespace App

variable (server : List Exchange → Request → Except String Response)

/-- group の一覧の答えが選ぶ group。位置は変わらず、末尾を越えれば末尾になる。 -/
def reselected (app : App) : Except String Response → Option String
  | .ok (.groups _ groups) => (groups[min app.gsel (groups.length - 1)]?).map GroupInfo.name
  | _ => app.selected

/-- `before` を送ってから group の一覧を読み直す。 -/
def regrouped (app : App) (before : List Request) (relists : Bool) : Landing where
  group := app.reselected (server (asked server app.sent before) .listGroups)
  sent := asked server app.sent (before ++ [.listGroups])
  relists := relists

/-- group の pane で選択を動かすと、移った先の List を送る。 -/
def moved (app : App) (delta : Int) : Option Landing :=
  match app.focus with
  | .groups =>
    if app.groups.length = 0 then none
    else
      some ⟨(app.groups[((app.gsel + delta) % app.groups.length).toNat]?).map GroupInfo.name,
        app.sent, true⟩
  | .secrets => none

/-- 二つの pane の画面で、選択を移す key。 -/
def landingNormal (app : App) : Key → Option Landing
  | .down | .char 'j' => app.moved 1
  | .up | .char 'k' => app.moved (-1)
  | .char 'r' => some (app.regrouped server [] true)
  | _ => none

/-- grant の後は、ACL と group の一覧を読み直すが、secret の一覧は読み直さない。 -/
def granted (app : App) (identity : String) (perms : UInt8) : Landing :=
  app.regrouped server [.grant app.aclGroup identity perms, .groupAcl app.aclGroup] false

/-- group の一覧を読み直す form は、group を作るものと許可を書くものである。 -/
def landingSubmit (app : App) (form : Form) : Option Landing :=
  match form.kind with
  | .newGroup =>
    if form.value 0 = "" then none
    else some (app.regrouped server [.createGroup (form.value 0)] true)
  | .grantEntry =>
    match parsePerms (form.value 1) with
    | .error _ => none
    | .ok perms => some (app.granted server (form.value 0) perms)
  | _ => none

/-- form は最後の欄の Enter で送られる。 -/
def landingForm (app : App) (form : Form) : Key → Option Landing
  | .enter => if form.focus + 1 < form.fields.length then none else app.landingSubmit server form
  | _ => none

/-- 許可の切り替えは、選ばれた行に書く。 -/
def landingToggle (app : App) (c : Char) : Option Landing :=
  (app.acl[app.asel]?).map fun entry => app.granted server entry.1 (toggled c entry.2)

/-- ACL の画面で、許可を切り替える key。 -/
def landingAcl (app : App) : Key → Option Landing
  | .char 'r' => app.landingToggle server 'r'
  | .char 'w' => app.landingToggle server 'w'
  | .char 'a' => app.landingToggle server 'a'
  | .char 'x' => app.landingToggle server 'x'
  | _ => none

/-- key を受ける前の状態と server の答えから決まる、選択の移る先。`none` は選択に触れない key である。 -/
def landing (app : App) (key : Key) : Option Landing :=
  if app.quit then none
  else
    match app.mode with
    | .normal => app.landingNormal server key
    | .form form => app.landingForm server form key
    | .acl => app.landingAcl server key
    | _ => none

end App

/-- secret が一つも出ていないか、選択の移る先が、いま選ばれている group か、続く List に一覧か拒否の答えが
ある group である。 -/
def Settles (server : List Exchange → Request → Except String Response) (app : App) (key : Key) :
    Prop :=
  ∀ l ∈ app.landing server key, ∀ group, l.group = some group →
    (app.secrets = [] ∨ app.selected = some group) ∨
      l.relists = true ∧ Answered (server l.sent (.list group))

/-! ## key を一つ受ける間 -/

/-- List の要求か。 -/
def isList : Request → Bool
  | .list _ => true
  | _ => false

/-- 一覧を読み直さない要求で、触れる secret があれば選ばれた group の、名指ししたものである。 -/
structure Proper (app : App) (request : Request) : Prop where
  unlisted : isList request = false
  touched : ∀ group name, app.touches request = some (group, name) →
    app.selected = some group ∧ (name ∈ app.secrets.map Prod.fst ∨ app.mode.secret = some name)

/-- 一覧を残したまま、`Proper` な要求だけを送り、`group` が選ばれている。 -/
structure Conducted (app : App) (group : Option String) (app' : App) : Prop where
  secrets : app'.secrets = app.secrets
  sent : ∃ fresh, app'.sent = fresh ++ app.sent ∧ ∀ exchange ∈ fresh, Proper app exchange.request
  selected : app'.selected = group

/-- 名指しは、前からのものか、出ている一覧から選んだものである。 -/
def Pointed (app app' : App) : Prop :=
  ∀ name, app'.mode.secret = some name →
    name ∈ app.secrets.map Prod.fst ∨ app.mode.secret = some name

variable {server : List Exchange → Request → Except String Response}

/-- key を一つ受けた結果。選択は移る先に移る。secret の一覧は、最後に読み直すか、まったく読み直さないか
である。 -/
inductive Outcome (server : List Exchange → Request → Except String Response) (app : App) :
    Option Landing → App → Prop where
  | kept {app' : App} (conducted : Conducted app app.selected app') (pointed : Pointed app app') :
      Outcome server app none app'
  | moved {l : Landing} {app' : App} (conducted : Conducted app l.group app')
      (pointed : Pointed app app') (unlisted : l.relists = false) : Outcome server app (some l) app'
  | relisted {app' : App} (conducted : Conducted app app.selected app')
      (unpointed : app'.mode.secret = none) :
      Outcome server app none (app'.refreshSecrets server)
  | movedAndRelisted {l : Landing} {app' : App} (conducted : Conducted app l.group app')
      (sent : app'.sent = l.sent) (unpointed : app'.mode.secret = none) (status : String) :
      Outcome server app (some l) { app'.refreshSecrets server with status }

variable {app app' : App} {group : String}

theorem proper_of_untouched {request : Request} (hlist : isList request = false)
    (htouch : app.touches request = none) : Proper app request where
  unlisted := hlist
  touched group name h := by
    rw [htouch] at h
    cases h

/-- 画面の二つの pane に出ているもの。 -/
def App.panes (app : App) : List (String × Nat) × List Exchange × Option String :=
  (app.secrets, app.sent, app.selected)

theorem selected_refreshGroups (app : App) :
    (app.refreshGroups server).selected = app.reselected (server app.sent .listGroups) := by
  unfold App.refreshGroups App.req
  cases server app.sent .listGroups with
  | error err => rfl
  | ok response => cases response <;> rfl

theorem asked_concat (sent : List Exchange) (requests : List Request) (request : Request) :
    asked server sent (requests ++ [request]) =
      ⟨request, server (asked server sent requests) request⟩ :: asked server sent requests := by
  unfold asked
  rw [List.foldl_append]
  rfl

namespace Conducted

variable {app app' : App} {group : Option String}

theorem frame {app'' : App} (h : Conducted app group app') (hpanes : app''.panes = app'.panes) :
    Conducted app group app'' := by
  obtain ⟨hsecrets, hrest⟩ := Prod.mk.inj hpanes
  obtain ⟨hsent, hselected⟩ := Prod.mk.inj hrest
  refine ⟨hsecrets.trans h.secrets, ?_, hselected.trans h.selected⟩
  rw [hsent]
  exact h.sent

theorem refl (app : App) : Conducted app app.selected app :=
  ⟨rfl, ⟨[], rfl, fun exchange hexchange => by cases hexchange⟩, rfl⟩

theorem still (h : app'.panes = app.panes) : Conducted app app.selected app' := (refl app).frame h

/-- 要求を一つ足す。 -/
theorem send {app'' : App} (h : Conducted app group app') {request : Request}
    (hproper : Proper app request) {answer : Except String Response}
    (hpanes : app''.panes = (app'.secrets, ⟨request, answer⟩ :: app'.sent, app'.selected)) :
    Conducted app group app'' := by
  have hsent : Conducted app group { app' with sent := ⟨request, answer⟩ :: app'.sent } := by
    obtain ⟨fresh, hfresh, hall⟩ := h.sent
    refine ⟨h.secrets, ⟨⟨request, answer⟩ :: fresh, by rw [hfresh]; rfl, ?_⟩, h.selected⟩
    intro exchange hexchange
    rcases List.mem_cons.mp hexchange with rfl | hexchange
    · exact hproper
    · exact hall exchange hexchange
  exact hsent.frame hpanes

theorem reqShow (h : Conducted app group app') {request : Request} (hproper : Proper app request) :
    Conducted app group (app'.reqShow server request) := by
  obtain ⟨status, hshow⟩ := app'.reqShow_eq server request
  rw [hshow]
  exact h.send hproper rfl

/-- group の一覧の読み直しだけが、選択を変える。 -/
theorem refreshGroups (h : Conducted app group app') :
    Conducted app (app'.reselected (server app'.sent .listGroups)) (app'.refreshGroups server) := by
  obtain ⟨serviceAdmin, groups, gsel, status, hrefresh⟩ := app'.refreshGroups_eq server
  have hsent : Conducted app group
      { app' with sent := ⟨.listGroups, server app'.sent .listGroups⟩ :: app'.sent } :=
    h.send (proper_of_untouched rfl rfl) rfl
  refine ⟨?_, ?_, selected_refreshGroups app'⟩
  · rw [hrefresh]
    exact hsent.secrets
  · rw [hrefresh]
    exact hsent.sent

theorem refreshIdentities (h : Conducted app group app') :
    Conducted app group (app'.refreshIdentities server) := by
  obtain ⟨identities, isel, status, hrefresh⟩ := app'.refreshIdentities_eq server
  rw [hrefresh]
  exact h.send (proper_of_untouched rfl rfl) rfl

theorem refreshAcl (h : Conducted app group app') : Conducted app group (app'.refreshAcl server) := by
  obtain ⟨acl, asel, status, mode, -, hrefresh⟩ := app'.refreshAcl_eq server
  rw [hrefresh]
  exact h.send (proper_of_untouched rfl rfl) rfl

/-- 要求を送った後に group の一覧を読み直せば、選択は `regrouped` の group に移る。 -/
theorem regrouped {before : List Request} (h : Conducted app app.selected app')
    (hsent : app'.sent = asked server app.sent before) (hgsel : app'.gsel = app.gsel)
    (relists : Bool) :
    Conducted app (app.regrouped server before relists).group (app'.refreshGroups server) := by
  have hgroup : (app.regrouped server before relists).group =
      app'.reselected (server app'.sent .listGroups) := by
    unfold App.regrouped App.reselected
    simp only [hgsel, h.selected, hsent]
  rw [hgroup]
  exact h.refreshGroups

end Conducted

/-! ## 画面ごとの結果 -/

namespace Outcome

variable {app app' : App}

/-- 名指しの無い画面に移る。 -/
theorem pointed_of_idle (hmode : app'.mode.secret = none) : Pointed app app' := by
  intro name hname
  rw [hmode] at hname
  cases hname

theorem idle (h : Conducted app app.selected app') (hmode : app'.mode.secret = none) :
    Outcome server app none app' :=
  .kept h (pointed_of_idle hmode)

/-- 要求を一つ送ってから、secret の一覧を読み直す。 -/
theorem sendAndRelist (h : Conducted app app.selected app') (hmode : app'.mode.secret = none)
    {request : Request} (hproper : Proper app request) :
    Outcome server app none ((app'.reqShow server request).refreshSecrets server) := by
  refine .relisted (h.reqShow hproper) ?_
  rw [App.mode_reqShow]
  exact hmode

/-- 要求をいくつか送ってから、両方の一覧を読み直す。 -/
theorem regrouped {before : List Request} (h : Conducted app app.selected app')
    (hsent : app'.sent = asked server app.sent before) (hgsel : app'.gsel = app.gsel)
    (hmode : app'.mode.secret = none) (status : String) :
    Outcome server app (some (app.regrouped server before true))
      { (app'.refreshGroups server).refreshSecrets server with status } := by
  refine .movedAndRelisted (h.regrouped hsent hgsel true) ?_ ?_ status
  · obtain ⟨serviceAdmin, groups, gsel, status, hrefresh⟩ := app'.refreshGroups_eq server
    rw [hrefresh, App.regrouped, asked_concat, hsent]
  · rw [App.mode_refreshGroups]
    exact hmode

/-- 画面も一覧も変えない。 -/
theorem unmoved (hpanes : app'.panes = app.panes) (hmode : app'.mode = app.mode) :
    Outcome server app none app' := by
  refine .kept (.still hpanes) fun name hname => .inr ?_
  rwa [hmode] at hname

theorem movedOnto {l : Landing} (h : Conducted app l.group app') (hsent : app'.sent = l.sent)
    (hmode : app'.mode.secret = none) :
    Outcome server app (some l) (app'.refreshSecrets server) :=
  .movedAndRelisted h hsent hmode (app'.refreshSecrets server).status

theorem moveSelection (hmode : app.mode.secret = none) (delta : Int) :
    Outcome server app (app.moved delta) (app.moveSelection server delta) := by
  unfold App.moved App.moveSelection
  cases app.focus with
  | groups =>
    simp only
    split
    · exact .unmoved rfl rfl
    · exact .movedOnto ⟨rfl, (Conducted.refl app).sent, rfl⟩ rfl hmode
  | secrets =>
    simp only
    split
    · exact .unmoved rfl rfl
    · exact .unmoved rfl rfl

/-- 選ばれた secret を読む要求。 -/
theorem proper_get {group : GroupInfo} {name : String} {version : Nat}
    (hgroup : app.selectedGroup = some group) (hname : app.secrets[app.ssel]? = some (name, version)) :
    Proper app (.get group.name name) where
  unlisted := rfl
  touched _ _ h := by
    cases h
    refine ⟨by rw [App.selected, hgroup]; rfl, .inl ?_⟩
    exact List.mem_map.mpr ⟨_, List.mem_of_getElem? hname, rfl⟩

/-- 開いた画面が名指しする secret は、開くときに選ばれていたものである。 -/
theorem openSelectedSecret {opened : String → Nat → Bytes → Mode}
    (hopened : ∀ name version value secret, (opened name version value).secret = some secret →
      secret = name) : Outcome server app none (app.openSelectedSecret server opened) := by
  cases hgroup : app.selectedGroup with
  | none =>
    rw [App.openSelectedSecret_none server opened (.inl hgroup)]
    exact .unmoved rfl rfl
  | some group =>
    cases hname : app.secrets[app.ssel]? with
    | none =>
      rw [App.openSelectedSecret_none server opened (.inr hname)]
      exact .unmoved rfl rfl
    | some entry =>
      obtain ⟨mode, status, hmode, heq⟩ := App.openSelectedSecret_eq server opened hgroup hname
      rw [heq]
      refine .kept ((Conducted.still rfl).send (proper_get hgroup hname) rfl) ?_
      intro secret hsecret
      rcases hmode with rfl | ⟨version, value, rfl⟩
      · exact .inr hsecret
      · rw [hopened _ _ _ _ hsecret]
        exact .inl (List.mem_map.mpr ⟨entry, List.mem_of_getElem? hname, rfl⟩)

theorem viewSelectedSecret : Outcome server app none (app.viewSelectedSecret server) := by
  refine .openSelectedSecret fun name version value secret hsecret => ?_
  cases hsecret

theorem editSelectedSecret : Outcome server app none (app.editSelectedSecret server) := by
  refine .openSelectedSecret fun name version value secret hsecret => ?_
  cases hsecret
  rfl

theorem openIdentities : Outcome server app none (app.openIdentities server) := by
  unfold App.openIdentities
  split
  · exact .idle ((Conducted.refreshIdentities (.still rfl)).frame rfl) rfl
  · exact .unmoved rfl rfl

theorem openNew : Outcome server app none app.openNew := by
  unfold App.openNew
  split
  · split
    · exact .idle (.still rfl) rfl
    · exact .unmoved rfl rfl
  · split
    · exact .idle (.still rfl) rfl
    · exact .unmoved rfl rfl

theorem secret_refreshAcl {app : App} (hmode : app.mode.secret = none) :
    (app.refreshAcl server).mode.secret = none := by
  obtain ⟨acl, asel, status, mode, hsame, heq⟩ := app.refreshAcl_eq server
  rw [heq]
  rcases hsame with rfl | rfl
  · exact hmode
  · rfl

theorem openAcl : Outcome server app none (app.openAcl server) := by
  unfold App.openAcl
  split
  · exact .idle (Conducted.refreshAcl (.still rfl)) (secret_refreshAcl rfl)
  · exact .unmoved rfl rfl

theorem confirmRotate : Outcome server app none app.confirmRotate := by
  unfold App.confirmRotate
  split
  · exact .idle (.still rfl) rfl
  · exact .unmoved rfl rfl

theorem confirmDelete : Outcome server app none app.confirmDelete := by
  unfold App.confirmDelete
  split
  · next name version hname =>
    refine .kept (.still rfl) fun secret hsecret => ?_
    cases hsecret
    exact .inl (List.mem_map.mpr ⟨_, List.mem_of_getElem? hname, rfl⟩)
  · exact .unmoved rfl rfl

/-- 通常画面の key の帰結。 -/
theorem onKeyNormal (hmode : app.mode.secret = none) (key : Key) :
    Outcome server app (app.landingNormal server key) (app.onKeyNormal server key) := by
  unfold App.onKeyNormal
  split
  · exact .unmoved rfl rfl
  · exact .idle (.still rfl) rfl
  -- 焦点を移す key
  · exact .unmoved rfl rfl
  · exact .unmoved rfl rfl
  · exact .unmoved rfl rfl
  · exact .unmoved rfl rfl
  · exact .unmoved rfl rfl
  · exact .moveSelection hmode 1
  · exact .moveSelection hmode 1
  · exact .moveSelection hmode (-1)
  · exact .moveSelection hmode (-1)
  -- `r` は両方の一覧を読み直す
  · exact .regrouped (.refl app) rfl rfl hmode "refreshed"
  · exact .openIdentities
  · exact .openNew
  · exact .openAcl
  · exact .confirmRotate
  · split
    · exact .viewSelectedSecret
    · exact .relisted (.still rfl) hmode
  · split
    · exact .viewSelectedSecret
    · exact .unmoved rfl rfl
  · split
    · exact .editSelectedSecret
    · exact .unmoved rfl rfl
  · split
    · exact .confirmDelete
    · exact .unmoved rfl rfl
  · have hstill : app.landingNormal server key = none := by
      rw [App.landingNormal] <;> assumption
    rw [hstill]
    exact .unmoved rfl rfl

/-- 要求を一つ送り、identity の一覧を読み直して、その画面に移る。 -/
theorem identities (h : Conducted app app.selected app') {request : Request}
    (hproper : Proper app request) :
    Outcome server app none
      { (app'.reqShow server request).refreshIdentities server with mode := .identities } :=
  .idle ((h.reqShow hproper).refreshIdentities.frame rfl) rfl

/-- 確認画面の帰結。 -/
theorem confirmed {action : ConfirmAction} (hmode : app.mode = .confirm action) :
    Outcome server app none (App.confirmed server { app with mode := .normal } action) := by
  have hleft : Conducted app app.selected { app with mode := .normal } := .still rfl
  cases action with
  | deleteSecret name version =>
    unfold App.confirmed
    simp only
    split
    · exact .idle hleft rfl
    · next group hgroup =>
      have hproper : Proper app (.delete group.name name (UInt64.ofNat version)) := by
        refine ⟨rfl, fun _ _ h => ?_⟩
        cases h
        refine ⟨?_, .inr (by rw [hmode]; rfl)⟩
        exact congrArg (Option.map GroupInfo.name) hgroup
      exact .sendAndRelist hleft rfl hproper
  | removeIdentity name => exact .identities hleft (proper_of_untouched rfl rfl)
  | rotateDek group =>
    obtain ⟨status, heq⟩ := App.rotateDek_eq server { app with mode := .normal } group
    show Outcome server app none (App.rotateDek server { app with mode := .normal } group)
    rw [heq]
    have hproper : Proper app (.rotateDek group) := proper_of_untouched rfl rfl
    exact .idle (hleft.send hproper rfl) rfl
  | setServiceAdmin name serviceAdmin =>
    exact .identities hleft (proper_of_untouched rfl rfl)

theorem onKeyConfirm {action : ConfirmAction} (hmode : app.mode = .confirm action) (key : Key) :
    Outcome server app none (app.onKeyConfirm server action key) := by
  unfold App.onKeyConfirm
  split
  · exact .confirmed hmode
  · exact .confirmed hmode
  · exact .idle (.still rfl) action.secret_leave
  · exact .idle (.still rfl) action.secret_leave
  · exact .unmoved rfl rfl

/-- 選ばれた group への Put。編集の form からなら、form が名指しした secret に向かう。 -/
theorem proper_put {group : GroupInfo} {name : String} {value : Bytes} {expectedVersion : UInt64}
    (hgroup : app.selectedGroup = some group)
    (hname : app.mode.editing = true → app.mode.secret = some name) :
    Proper app (.put group.name name value expectedVersion) where
  unlisted := rfl
  touched g n h := by
    have hput : (if app.mode.editing then some (group.name, name) else none) = some (g, n) := h
    split at hput
    · next hediting =>
      cases hput
      exact ⟨congrArg (Option.map GroupInfo.name) hgroup, .inr (hname hediting)⟩
    · cases hput

/-- 許可を書いた後は、group の一覧は読み直すが、secret の一覧は読み直さない。 -/
theorem granted {identity : String} {perms : UInt8} (h : Conducted app app.selected app')
    (hsent : app'.sent = asked server app.sent [.grant app.aclGroup identity perms])
    (hgroup : app'.aclGroup = app.aclGroup) (hgsel : app'.gsel = app.gsel)
    (hmode : app'.mode.secret = none) :
    Outcome server app (some (app.granted server identity perms))
      ((app'.refreshAcl server).refreshGroups server) := by
  have hrefreshed : Conducted app app.selected (app'.refreshAcl server) := h.refreshAcl
  obtain ⟨acl, asel, status, mode, -, heq⟩ := app'.refreshAcl_eq server
  refine .moved (hrefreshed.regrouped ?_ ?_ false) (pointed_of_idle ?_) rfl
  · rw [heq, hsent, hgroup]
    rfl
  · rw [heq, hgsel]
  · rw [App.mode_refreshGroups]
    exact secret_refreshAcl hmode

/-- form を送る。 -/
theorem submitForm {form : Form} (hmode : app.mode = .form form) :
    Outcome server app (app.landingSubmit server form)
      (App.submitForm server { app with mode := .normal } form) := by
  have hleft : Conducted app app.selected { app with mode := .normal } := .still rfl
  unfold App.landingSubmit App.submitForm
  cases hkind : form.kind with
  | newGroup =>
    simp only
    split
    · exact .idle (.still rfl) rfl
    · obtain ⟨status, hshow⟩ := App.reqShow_eq server { app with mode := .normal }
        (.createGroup (form.value 0))
      have hcreated : Conducted app app.selected (App.reqShow server _ (.createGroup (form.value 0))) :=
        hleft.reqShow (proper_of_untouched rfl rfl)
      refine .regrouped hcreated ?_ ?_ ?_ _
      · rw [hshow]
        rfl
      · rw [hshow]
      · rw [hshow]
        rfl
  | newSecret =>
    simp only
    split
    · exact .idle (.still rfl) rfl
    · split
      · exact .idle hleft rfl
      · next group hgroup =>
        have hediting : app.mode.editing = false := by
          rw [hmode]
          simp only [Mode.editing, hkind]
        refine .sendAndRelist hleft rfl (proper_put hgroup fun h => ?_)
        rw [hediting] at h
        cases h
  | editSecret name expectedVersion =>
    simp only
    split
    · exact .idle hleft rfl
    · next group hgroup =>
      refine .sendAndRelist hleft rfl (proper_put hgroup fun _ => ?_)
      rw [hmode]
      simp only [Mode.secret, hkind]
  | addIdentity =>
    simp only
    split
    · exact .idle (.still rfl) rfl
    · exact .identities hleft (proper_of_untouched rfl rfl)
  | grantEntry =>
    simp only
    cases parsePerms (form.value 1) with
    | error err => exact .idle (.still rfl) rfl
    | ok perms =>
      obtain ⟨status, hshow⟩ := App.reqShow_eq server { app with mode := .normal }
        (.grant app.aclGroup (form.value 0) perms)
      have hproper : Proper app (.grant app.aclGroup (form.value 0) perms) :=
        proper_of_untouched rfl rfl
      simp only [hshow]
      exact .granted ((Conducted.refl app).send hproper rfl) rfl rfl rfl rfl

/-- 用途を変えない form は、名指しも変えない。 -/
theorem reformed {form form' : Form} (hmode : app.mode = .form form) (hkind : form'.kind = form.kind) :
    Outcome server app none { app with mode := .form form' } := by
  refine .kept (.still rfl) fun name hname => .inr ?_
  rw [hmode, ← hname]
  simp only [Mode.secret, hkind]

theorem onKeyForm {form : Form} (hmode : app.mode = .form form) (key : Key) :
    Outcome server app (app.landingForm server form key) (app.onKeyForm server form key) := by
  cases key with
  | esc => exact .idle (.still rfl) form.kind.secret_leave
  | tab => exact .reformed hmode rfl
  | down => exact .reformed hmode rfl
  | up => exact .reformed hmode rfl
  | backspace => exact .reformed hmode rfl
  | char c => exact .reformed hmode rfl
  | enter =>
    unfold App.landingForm App.onKeyForm
    dsimp only
    split
    · exact .reformed hmode rfl
    · exact .submitForm hmode
  | left => exact .unmoved rfl rfl
  | right => exact .unmoved rfl rfl
  | other => exact .unmoved rfl rfl

theorem onKeyIdentities (key : Key) : Outcome server app none (app.onKeyIdentities key) := by
  unfold App.onKeyIdentities
  split
  · exact .idle (.still rfl) rfl
  · exact .idle (.still rfl) rfl
  · exact .idle (.still rfl) rfl
  · exact .unmoved rfl rfl
  · exact .unmoved rfl rfl
  · exact .unmoved rfl rfl
  · exact .unmoved rfl rfl
  · exact .idle (.still rfl) rfl
  · split
    · exact .idle (.still rfl) rfl
    · exact .unmoved rfl rfl
  · split
    · exact .idle (.still rfl) rfl
    · exact .unmoved rfl rfl
  · exact .unmoved rfl rfl

theorem togglePerms (hmode : app.mode.secret = none) (c : Char) :
    Outcome server app (app.landingToggle server c) (app.togglePerms server c) := by
  unfold App.landingToggle App.togglePerms
  cases app.acl[app.asel]? with
  | none => exact .unmoved rfl rfl
  | some entry =>
    obtain ⟨status, hshow⟩ := app.reqShow_eq server
      (.grant app.aclGroup entry.1 (App.toggled c entry.2))
    simp only [hshow, Option.map_some]
    have hproper : Proper app (.grant app.aclGroup entry.1 (App.toggled c entry.2)) :=
      proper_of_untouched rfl rfl
    exact .granted ((Conducted.refl app).send hproper rfl) rfl rfl rfl hmode

theorem openGrantForm (identity : String) : Outcome server app none (app.openGrantForm identity) := by
  refine .idle (.still rfl) ?_
  simp only [App.openGrantForm, Mode.secret, App.grantForm_kind]

theorem openGrantPicker (hmode : app.mode.secret = none) :
    Outcome server app none (app.openGrantPicker server) := by
  obtain ⟨candidates, csel, mode, status, hopened, heq⟩ := app.openGrantPicker_eq server
  rw [heq]
  have hproper : Proper app (.listIdentityNames app.aclGroup) := proper_of_untouched rfl rfl
  refine .idle ((Conducted.still rfl).send hproper rfl) ?_
  rcases hopened with rfl | rfl | rfl
  · exact hmode
  · rfl
  · simp only [Mode.secret, App.grantForm_kind]

theorem onKeyAcl (hmode : app.mode.secret = none) (key : Key) :
    Outcome server app (app.landingAcl server key) (app.onKeyAcl server key) := by
  unfold App.onKeyAcl
  split
  · exact .idle (.still rfl) rfl
  · exact .idle (.still rfl) rfl
  · exact .unmoved rfl rfl
  · exact .unmoved rfl rfl
  · exact .unmoved rfl rfl
  · exact .unmoved rfl rfl
  · exact .togglePerms hmode 'r'
  · exact .togglePerms hmode 'w'
  · exact .togglePerms hmode 'a'
  · exact .togglePerms hmode 'x'
  · exact .openGrantPicker hmode
  · have hstill : app.landingAcl server key = none := by
      rw [App.landingAcl] <;> assumption
    rw [hstill]
    exact .unmoved rfl rfl

theorem onKeyGrantPicker (key : Key) : Outcome server app none (app.onKeyGrantPicker key) := by
  unfold App.onKeyGrantPicker
  split
  · exact .idle (.still rfl) rfl
  · exact .idle (.still rfl) rfl
  · exact .unmoved rfl rfl
  · exact .unmoved rfl rfl
  · exact .unmoved rfl rfl
  · exact .unmoved rfl rfl
  · split
    · exact .openGrantForm _
    · exact .unmoved rfl rfl
  · exact .unmoved rfl rfl

theorem step (app : App) (key : Key) :
    Outcome server app (app.landing server key) (app.step server key) := by
  unfold App.landing App.step App.onKey
  split
  · exact .unmoved rfl rfl
  · cases hmode : app.mode with
    | normal => exact .onKeyNormal (by rw [hmode]; rfl) key
    | help =>
      dsimp only
      split
      · exact .idle (.still rfl) rfl
      · exact .unmoved rfl rfl
    | viewSecret name version value =>
      dsimp only
      split
      · exact .idle (.still rfl) rfl
      · exact .unmoved rfl rfl
    | confirm action => exact .onKeyConfirm hmode key
    | form form => exact .onKeyForm hmode key
    | identities => exact .onKeyIdentities key
    | acl => exact .onKeyAcl (by rw [hmode]; rfl) key
    | grantPicker => exact .onKeyGrantPicker key

end Outcome

/-! ## やり取りと一覧 -/

theorem shown_cons {exchange : Exchange} (h : isList exchange.request = false)
    (rest : List Exchange) : shown (exchange :: rest) = shown rest := by
  obtain ⟨request, answer⟩ := exchange
  cases request with
  | list group => cases h
  | _ => rfl

theorem shown_append {fresh : List Exchange}
    (h : ∀ exchange ∈ fresh, isList exchange.request = false) (sent : List Exchange) :
    shown (fresh ++ sent) = shown sent := by
  induction fresh with
  | nil => rfl
  | cons exchange fresh ih =>
    rw [List.cons_append, shown_cons (h exchange List.mem_cons_self),
      ih fun x hx => h x (List.mem_cons_of_mem _ hx)]

/-- 新しいやり取りの一つで切れば、それより前は、新しいものの残りと前からのものである。 -/
theorem split_fresh {fresh later earlier sent : List Exchange} {exchange : Exchange}
    (h : fresh ++ sent = later ++ exchange :: earlier) (hlen : sent.length ≤ earlier.length) :
    ∃ between, fresh = later ++ exchange :: between ∧ earlier = between ++ sent := by
  rcases List.append_eq_append_iff.mp h with ⟨rest, -, hsent⟩ | ⟨rest, hfresh, hrest⟩
  · have := congrArg List.length hsent
    rw [List.length_append, List.length_cons] at this
    omega
  · cases rest with
    | nil =>
      have := congrArg List.length hrest
      rw [List.nil_append, List.length_cons] at this
      omega
    | cons first between =>
      rw [List.cons_append] at hrest
      cases hrest
      exact ⟨between, hfresh, rfl⟩

/-- List の答えが残す一覧は、空か、その group の一覧として出ているか、答えが無くて元のままである。 -/
theorem listed_cases (group : String) (answer : Except String Response) (sent : List Exchange)
    (before : List (String × Nat)) :
    App.listed before answer = [] ∨
      shown (⟨.list group, answer⟩ :: sent) = some (group, App.listed before answer) ∨
      ¬ Answered answer ∧ App.listed before answer = before ∧
        shown (⟨.list group, answer⟩ :: sent) = shown sent := by
  cases answer with
  | error err => exact .inr (.inr ⟨by simp [Answered], rfl, rfl⟩)
  | ok response =>
    cases response with
    | names names => exact .inr (.inl rfl)
    | denied => exact .inl rfl
    | _ => exact .inr (.inr ⟨by simp [Answered], rfl, rfl⟩)

/-! ## 一覧と選択が揃った状態 -/

/-- 一覧が出ていれば選ばれた group のもので、名指しはその中にある。 -/
structure Steady (app : App) : Prop where
  panes : ∀ group, app.selected = some group →
    app.secrets = [] ∨ shown app.sent = some (group, app.secrets)
  pointed : ∀ name, app.mode.secret = some name → name ∈ app.secrets.map Prod.fst

theorem Steady.inView (h : Steady app) {name : String} (hgroup : app.selected = some group)
    (hname : name ∈ app.secrets.map Prod.fst ∨ app.mode.secret = some name) :
    InView app.sent group name := by
  -- 名指しがあるなら、一覧は空でない
  have hmem : name ∈ app.secrets.map Prod.fst := hname.elim id (h.pointed name)
  rcases h.panes group hgroup with hnil | hshown
  · rw [hnil] at hmem
    cases hmem
  · exact ⟨app.secrets, hshown, hmem⟩

theorem Conducted.coherent {group : Option String} (hsteady : Steady app)
    (h : Conducted app group app') : Coherent app app' := by
  intro later exchange earlier hsent hlen group name htouch
  obtain ⟨fresh, hfresh, hall⟩ := h.sent
  rw [hfresh] at hsent
  obtain ⟨between, rfl, rfl⟩ := split_fresh hsent hlen
  have hproper := hall exchange (by simp)
  obtain ⟨hgroup, hname⟩ := hproper.touched group name htouch
  have hshown : shown (between ++ app.sent) = shown app.sent := by
    refine shown_append (fun x hx => (hall x ?_).unlisted) _
    exact List.mem_append_right _ (List.mem_cons_of_mem _ hx)
  unfold InView
  rw [hshown]
  exact hsteady.inView hgroup hname

theorem refreshSecrets_sent (h : (app.refreshSecrets server).selected = some group) :
    app.selected = some group ∧
      (app.refreshSecrets server).sent =
        ⟨.list group, server app.sent (.list group)⟩ :: app.sent ∧
      (app.refreshSecrets server).secrets =
        App.listed app.secrets (server app.sent (.list group)) := by
  cases hgroup : app.selectedGroup with
  | none =>
    rw [App.refreshSecrets_none server hgroup] at h
    have hnone : app.selected = none := congrArg (Option.map GroupInfo.name) hgroup
    exact absurd (hnone.symm.trans h) (by intro h; cases h)
  | some info =>
    obtain ⟨ssel, status, heq⟩ := App.refreshSecrets_some server hgroup
    rw [heq] at h ⊢
    have hsome : app.selected = some info.name := congrArg (Option.map GroupInfo.name) hgroup
    have hname : info.name = group := Option.some.inj (hsome.symm.trans h)
    subst hname
    exact ⟨hsome, rfl, rfl⟩

/-- List を一つ足しても、送った要求の名指しは変わらない。 -/
theorem Coherent.cons {app'' : App} (h : Coherent app app') {answer : Except String Response}
    (hsent : app''.sent = ⟨.list group, answer⟩ :: app'.sent) : Coherent app app'' := by
  intro later exchange earlier heq hlen g n htouch
  rw [hsent] at heq
  cases later with
  | nil =>
    cases heq
    cases htouch
  | cons first later =>
    obtain ⟨-, htail⟩ := List.cons.inj heq
    exact h later exchange earlier htail hlen g n htouch

theorem Conducted.coherent_refreshSecrets {group : Option String} (hsteady : Steady app)
    (h : Conducted app group app') : Coherent app (app'.refreshSecrets server) := by
  have hcoherent : Coherent app app' := h.coherent hsteady
  cases hgroup : app'.selectedGroup with
  | none =>
    rw [App.refreshSecrets_none server hgroup]
    exact hcoherent
  | some group =>
    obtain ⟨ssel, status, heq⟩ := App.refreshSecrets_some server hgroup
    rw [heq]
    exact hcoherent.cons rfl

theorem Outcome.coherent {landing : Option Landing} (hsteady : Steady app)
    (h : Outcome server app landing app') : Coherent app app' := by
  cases h with
  | kept hconducted => exact hconducted.coherent hsteady
  | moved hconducted => exact hconducted.coherent hsteady
  | relisted hconducted => exact hconducted.coherent_refreshSecrets hsteady
  | movedAndRelisted hconducted => exact hconducted.coherent_refreshSecrets hsteady

/-- 一覧が空か、選択が前のままなら、読み直さなくても揃っている。 -/
theorem Conducted.panes (hsteady : Steady app) (h : Conducted app (some group) app')
    (hsame : app.secrets = [] ∨ app.selected = some group) :
    app'.secrets = [] ∨ shown app'.sent = some (group, app'.secrets) := by
  obtain ⟨fresh, hfresh, hall⟩ := h.sent
  rw [h.secrets, hfresh, shown_append fun x hx => (hall x hx).unlisted]
  exact hsame.elim .inl (hsteady.panes group)

/-- 読み直した一覧は、List に答えがあるか、選択が前のままなら、選ばれた group のものである。 -/
theorem Conducted.panes_refreshSecrets (hsteady : Steady app)
    (h : Conducted app (some group) app')
    (hsettles : (app.secrets = [] ∨ app.selected = some group) ∨
      Answered (server app'.sent (.list group)))
    (hgroup : (app'.refreshSecrets server).selected = some group) :
    (app'.refreshSecrets server).secrets = [] ∨
      shown (app'.refreshSecrets server).sent =
        some (group, (app'.refreshSecrets server).secrets) := by
  obtain ⟨-, hsent, hsecrets⟩ := refreshSecrets_sent hgroup
  rw [hsent, hsecrets]
  rcases listed_cases group (server app'.sent (.list group)) app'.sent app'.secrets with
    hnil | hnamed | ⟨hunanswered, hbefore, hshown⟩
  · exact .inl hnil
  · exact .inr hnamed
  · -- 答えが無ければ一覧は元のままで、選択は動いていない
    rw [hbefore, hshown]
    exact h.panes hsteady (hsettles.resolve_right hunanswered)

theorem Conducted.selected_refreshSecrets {chosen : Option String} (h : Conducted app chosen app')
    (hgroup : (app'.refreshSecrets server).selected = some group) : chosen = some group :=
  h.selected.symm.trans (refreshSecrets_sent hgroup).1

theorem unpointed_refreshSecrets (h : app.mode.secret = none) {name : String} :
    (app.refreshSecrets server).mode.secret ≠ some name := by
  rw [App.mode_refreshSecrets, h]
  exact Option.some_ne_none name ∘ Eq.symm

/-- 一覧と選択は揃ったままである。 -/
theorem Steady.step (hsteady : Steady app) {key : Key} (hsettles : Settles server app key) :
    Steady (app.step server key) := by
  have houtcome : Outcome server app (app.landing server key) (app.step server key) := .step app key
  unfold Settles at hsettles
  generalize app.landing server key = landing, app.step server key = app' at hsettles houtcome
  cases houtcome with
  | kept hconducted hpointed =>
    refine ⟨fun group hgroup => ?_, fun name hname => ?_⟩
    · have hsame := hconducted.selected.symm.trans hgroup
      exact (hsame ▸ hconducted).panes hsteady (.inr hsame)
    · rw [hconducted.secrets]
      exact (hpointed name hname).elim id (hsteady.pointed name)
  | @moved l _ hconducted hpointed hunlisted =>
    refine ⟨fun group hgroup => ?_, fun name hname => ?_⟩
    · have hland := hconducted.selected.symm.trans hgroup
      refine (hland ▸ hconducted).panes hsteady ((hsettles l rfl group hland).resolve_right ?_)
      rw [hunlisted]
      simp
    · rw [hconducted.secrets]
      exact (hpointed name hname).elim id (hsteady.pointed name)
  | relisted hconducted hunpointed =>
    refine ⟨fun group hgroup => ?_, fun name hname => absurd hname (unpointed_refreshSecrets hunpointed)⟩
    have hsame := hconducted.selected_refreshSecrets hgroup
    exact (hsame ▸ hconducted).panes_refreshSecrets hsteady (.inl (.inr hsame)) hgroup
  | @movedAndRelisted l _ hconducted hsent hunpointed status =>
    refine ⟨fun group hgroup => ?_, fun name hname => absurd hname (unpointed_refreshSecrets hunpointed)⟩
    have hland := hconducted.selected_refreshSecrets hgroup
    refine (hland ▸ hconducted).panes_refreshSecrets hsteady ?_ hgroup
    rw [hsent]
    exact (hsettles l rfl group hland).imp_right And.right

/-- どの key の前でも `Settles` である。 -/
def SettledAlong (server : List Exchange → Request → Except String Response) :
    App → List Key → Prop
  | _, [] => True
  | app, key :: keys => Settles server app key ∧ SettledAlong server (app.step server key) keys

/-- 起動した画面は揃っている。 -/
theorem steady_start : Steady (App.start server) := by
  have hempty : ((App.new).refreshGroups server).secrets = [] := by
    obtain ⟨serviceAdmin, groups, gsel, status, heq⟩ := App.refreshGroups_eq server .new
    rw [heq]
    rfl
  refine ⟨fun group hgroup => ?_, fun name hname => ?_⟩
  · obtain ⟨-, hsent, hsecrets⟩ := refreshSecrets_sent hgroup
    unfold App.start
    rw [hsent, hsecrets, hempty]
    rcases listed_cases group _ ((App.new).refreshGroups server).sent [] with h | h | h
    · exact .inl h
    · exact .inr h
    · exact .inl h.2.1
  · unfold App.start at hname
    rw [App.mode_refreshSecrets, App.mode_refreshGroups] at hname
    cases hname

theorem Steady.exec (h : Steady app) {keys : List Key} (hsettled : SettledAlong server app keys) :
    Steady (keys.foldl (App.step server) app) := by
  induction keys generalizing app with
  | nil => exact h
  | cons key keys ih => exact ih (h.step hsettled.1) hsettled.2

theorem coherent_start : Coherent App.new (App.start server) := by
  have hsteady : Steady App.new := by
    refine ⟨fun _ _ => .inl rfl, fun name hname => ?_⟩
    cases hname
  exact (Conducted.refreshGroups (.refl App.new)).coherent_refreshSecrets hsteady

/--
**出ている一覧の secret にだけ触れる。**

起動からのどの key についても、その前に secret が出ていないか、その前の状態と server の答えから決まる選択の
移る先が、いまの group か、続く List に一覧か拒否の答えがある group だとする。すると、次の key が送る Get、Delete、編集からの Put は、
その時に出ている一覧の secret を、その一覧の group に向けて名指しする。
-/
theorem acts_on_shown_secrets (server : List Exchange → Request → Except String Response) :
    Coherent App.new (App.start server) ∧
    ∀ keys, SettledAlong server (App.start server) keys →
      ∀ key, Coherent (App.run server keys) (App.run server (keys ++ [key])) := by
  refine ⟨coherent_start, fun keys hsettled key => ?_⟩
  have hsteady : Steady (App.run server keys) := steady_start.exec hsettled
  have hrun : App.run server (keys ++ [key]) = (App.run server keys).step server key := by
    unfold App.run
    rw [List.foldl_append, List.foldl_cons, List.foldl_nil]
  rw [hrun]
  exact Outcome.coherent hsteady (.step _ key)

/-- group `a` に `x`、group `b` に `y` がある server。 -/
def pairServer (_ : List Exchange) : Request → Except String Response
  | .listGroups => .ok (.groups false [⟨"a", 3⟩, ⟨"b", 3⟩])
  | .list group => .ok (.names [(if group = "a" then "x" else "y", 1)])
  | _ => .ok .ok

/-- 選択を移してから、移った先の secret を消す。 -/
theorem acts_on_shown_secrets_sample :
    Coherent (App.run pairServer [.down, .tab, .char 'd'])
      (App.run pairServer [.down, .tab, .char 'd', .enter]) := by
  have hsettled : SettledAlong pairServer (App.start pairServer) [.down, .tab, .char 'd'] := by
    refine ⟨fun l hl group hgroup => ?_, fun l hl => ?_, fun l hl => ?_, trivial⟩
    · cases hl
      cases hgroup
      exact .inr ⟨rfl, .inr ⟨_, rfl⟩⟩
    · cases hl
    · cases hl
  exact (acts_on_shown_secrets pairServer).2 [.down, .tab, .char 'd'] hsettled .enter

/-- 起動の後に、`b` の前に group `aa` ができた server。 -/
def growingServer : List Exchange → Request → Except String Response
  | [], .listGroups => .ok (.groups true [⟨"b", 7⟩])
  | _, .listGroups => .ok (.groups true [⟨"aa", 7⟩, ⟨"b", 7⟩])
  | _, .list group => .ok (.names (if group = "b" then [("x", 4)] else []))
  | _, .groupAcl _ => .ok (.acl [("alice", 7)])
  | _, _ => .ok .ok

/-- 許可を書き換えて戻ると、`b` の一覧が `aa` の名前の下に残り、`aa` に向けて `x` を消しにいく。 -/
theorem delete_aims_at_other_group :
    ¬ Coherent (App.run growingServer [.char 'a', .char 'r', .esc, .tab, .char 'd'])
      (App.run growingServer [.char 'a', .char 'r', .esc, .tab, .char 'd', .char 'y']) := by
  intro h
  obtain ⟨names, hshown, -⟩ := h [⟨.list "aa", .ok (.names [])⟩] ⟨.delete "aa" "x" 4, .ok .ok⟩
    (App.run growingServer [.char 'a', .char 'r', .esc, .tab, .char 'd']).sent (by decide +kernel)
    (Nat.le_refl _) "aa" "x" rfl
  have hlast : shown (App.run growingServer [.char 'a', .char 'r', .esc, .tab, .char 'd']).sent =
      some ("b", [("x", 4)]) := by decide +kernel
  rw [hlast] at hshown
  have hgroup : "b" = "aa" := congrArg Prod.fst (Option.some.inj hshown)
  exact absurd hgroup (by decide)

end Tui

end SecretBunker
