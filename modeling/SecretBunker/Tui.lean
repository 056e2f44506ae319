import SecretBunker.Lib.Text
import SecretBunker.Lib.Utf8
import SecretBunker.Proto

/-!
# 端末の UI

`src/tui.rs` の `App` のうち、描画を除いた部分。key を一つ受けるたびに状態を進め、途中で server に
要求を送って答えを待つ。送った要求とその答えは `sent` に新しい順に残る。

server は、それまでのやり取りと要求から答えを決める任意の関数で、通信の失敗（`.error`）も返す。
group の一覧も secret の一覧も要求のたびに変わりうる。
-/

namespace SecretBunker

namespace Tui

open Text Utf8

/-- `KeyCode` のうち、扱いの分かれるもの。 -/
inductive Key where
  | char (c : Char)
  | enter
  | esc
  | tab
  | backspace
  | up
  | down
  | left
  | right
  | other
  deriving DecidableEq

/-- 焦点のある pane。 -/
inductive Focus where
  | groups
  | secrets
  deriving DecidableEq

/-- 確認を求めている操作。 -/
inductive ConfirmAction where
  | deleteSecret (name : String) (version : Nat)
  | removeIdentity (name : String)
  | rotateDek (group : String)
  | setServiceAdmin (name : String) (serviceAdmin : Bool)
  deriving DecidableEq

/-- form の用途。 -/
inductive FormKind where
  | newGroup
  | newSecret
  | editSecret (name : String) (expectedVersion : Nat)
  | addIdentity
  | grantEntry
  deriving DecidableEq

/-- 用途ごとの欄。 -/
def FormKind.labels : FormKind → List String
  | newGroup => ["name"]
  | newSecret => ["name", "value"]
  | editSecret .. => ["value"]
  | addIdentity => ["name", "endpoint id", "service admin (y/n)"]
  | grantEntry => ["identity", "perms (r/rw/rwa/none)"]

theorem FormKind.length_labels_pos (kind : FormKind) : 0 < kind.labels.length := by
  cases kind <;> exact Nat.succ_pos _

/-- 入力の form。欄は用途が決め、焦点はいつもどれかの欄にある。 -/
structure Form where
  kind : FormKind
  title : String
  fields : List (String × String)
  focus : Nat
  labelled : fields.map Prod.fst = kind.labels
  focused : focus < fields.length

namespace Form

theorem length_pos {kind : FormKind} {fields : List (String × String)}
    (h : fields.map Prod.fst = kind.labels) : 0 < fields.length := by
  rw [← List.length_map (f := Prod.fst), h]
  exact kind.length_labels_pos

/-- 最初の欄に焦点を置いた form。 -/
def new (kind : FormKind) (title : String) (fields : List (String × String))
    (labelled : fields.map Prod.fst = kind.labels) : Form :=
  ⟨kind, title, fields, 0, labelled, length_pos labelled⟩

/-- 欄の値。欄の数は用途が決めているので、source の添字が範囲を外れることは無い。 -/
def value (form : Form) (i : Nat) : String := ((form.fields[i]?).map Prod.snd).getD ""

theorem map_fst_modify (fields : List (String × String)) (i : Nat) (f : String → String) :
    (fields.modify i fun field => (field.1, f field.2)).map Prod.fst = fields.map Prod.fst := by
  induction fields generalizing i with
  | nil => cases i <;> rfl
  | cons field fields ih =>
    cases i with
    | zero => rfl
    | succ i => rw [List.modify_succ_cons, List.map_cons, ih, List.map_cons]

theorem labelled_modify (form : Form) (f : String → String) :
    (form.fields.modify form.focus fun field => (field.1, f field.2)).map Prod.fst =
      form.kind.labels := by
  rw [map_fst_modify, form.labelled]

theorem focused_modify (form : Form) (f : String → String) :
    form.focus < (form.fields.modify form.focus fun field => (field.1, f field.2)).length := by
  rw [List.length_modify]
  exact form.focused

/-- 焦点の欄の値を書き換える。 -/
def edit (form : Form) (f : String → String) : Form :=
  { form with
    fields := form.fields.modify form.focus fun field => (field.1, f field.2)
    labelled := form.labelled_modify f
    focused := form.focused_modify f }

theorem mod_lt_length (form : Form) (n : Nat) : n % form.fields.length < form.fields.length :=
  Nat.mod_lt n (length_pos form.labelled)

/-- 焦点を `n` 番目の欄に移す。端を越えれば反対の端に回る。 -/
def focusOn (form : Form) (n : Nat) : Form :=
  { form with focus := n % form.fields.length, focused := form.mod_lt_length n }

end Form

/-- `String::pop` -/
def pop (s : String) : String := String.ofList s.toList.dropLast

/-- 出ている画面。 -/
inductive Mode where
  | normal
  | help
  | viewSecret (name : String) (version : Nat) (value : String)
  | form (form : Form)
  | confirm (action : ConfirmAction)
  | identities
  | acl
  | grantPicker

/-- 確認をやめて戻る画面。 -/
def ConfirmAction.leave : ConfirmAction → Mode
  | removeIdentity _ => .identities
  | setServiceAdmin .. => .identities
  | _ => .normal

/-- form を閉じて戻る画面。 -/
def FormKind.leave : FormKind → Mode
  | addIdentity => .identities
  | grantEntry => .acl
  | _ => .normal

/-- 送った要求と、その答え。 -/
structure Exchange where
  request : Request
  answer : Except String Response
  deriving DecidableEq

/-- 画面の状態と、それまでに送った要求。 -/
structure App where
  sent : List Exchange
  serviceAdmin : Bool
  groups : List GroupInfo
  gsel : Nat
  secrets : List (String × Nat)
  ssel : Nat
  identities : List IdentityInfo
  isel : Nat
  acl : List (String × UInt8)
  asel : Nat
  aclGroup : String
  candidates : List String
  csel : Nat
  focus : Focus
  mode : Mode
  status : String
  quit : Bool

/-- まだ grant の無い identity。 -/
def grantCandidates (names : List String) (acl : List (String × UInt8)) : List String :=
  names.filter fun name => !acl.any fun entry => entry.1 == name

/-- 選択を一つ下げる。空の一覧では動かない。 -/
def selectNext (sel len : Nat) : Nat := if len = 0 then sel else (sel + 1) % len

/-- 端で回り込んで、一つ上を選ぶ。 -/
def selectPrevious (sel len : Nat) : Nat := if len = 0 then sel else (sel + len - 1) % len

/-- `proto::parse_perms` -/
def parsePerms (s : String) : Except String UInt8 :=
  let s := trim s
  if s = "none" ∨ s = "-" then .ok 0
  else
    s.toList.foldlM (fun perms c =>
      if c = 'r' then .ok (perms ||| 1)
      else if c = 'w' then .ok (perms ||| 2)
      else if c = 'a' then .ok (perms ||| 4)
      else
        .error ("invalid permission '" ++ String.singleton c ++ "' (use r, w, a, or \"none\")")) 0

namespace App

/-- 何も読んでいない画面。 -/
def new : App where
  sent := []
  serviceAdmin := false
  groups := []
  gsel := 0
  secrets := []
  ssel := 0
  identities := []
  isel := 0
  acl := []
  asel := 0
  aclGroup := ""
  candidates := []
  csel := 0
  focus := .groups
  mode := .normal
  status := "connected — press ? for help"
  quit := false

/-- 選ばれている group。 -/
def selectedGroup (app : App) : Option GroupInfo := app.groups[app.gsel]?

/-- 答えを status の行に出す。 -/
def showResponse (app : App) : Response → App
  | .ok => { app with status := "ok" }
  | .version version => { app with status := "saved as v" ++ toString version }
  | .versionConflict current =>
    { app with
      status := "version conflict: current is v" ++ toString current ++ " — refresh and retry" }
  | .denied => { app with status := "denied" }
  | .failed reason => { app with status := "failed: " ++ reason }
  | .readOnlyReplica authoritative =>
    { app with status := "read-only replica — write to " ++ authoritative }
  | _ => app

variable (server : List Exchange → Request → Except String Response)

/-! ## 通信 -/

/-- 要求を一つ送る。届かなければ、理由を status に出す。 -/
def req (app : App) (request : Request) : Option Response × App :=
  match server app.sent request with
  | .ok response => (some response, { app with sent := ⟨request, .ok response⟩ :: app.sent })
  | .error err =>
    (none,
      { app with
        sent := ⟨request, .error err⟩ :: app.sent
        status := "transport error: " ++ err })

/-- 要求を送り、答えを status に出す。 -/
def reqShow (app : App) (request : Request) : App :=
  match app.req server request with
  | (some response, app) => app.showResponse response
  | (none, app) => app

/-- group の一覧を読み直す。 -/
def refreshGroups (app : App) : App :=
  match app.req server .listGroups with
  | (some (.groups serviceAdmin groups), app) =>
    { app with serviceAdmin, groups, gsel := min app.gsel (groups.length - 1) }
  | (some .denied, app) =>
    { app with status := "denied: this identity is not registered on the bunker" }
  | (_, app) => app

/-- 選ばれた group の secret の一覧を読み直す。 -/
def refreshSecrets (app : App) : App :=
  match app.selectedGroup with
  | none => { app with secrets := [] }
  | some group =>
    match app.req server (.list group.name) with
    | (some (.names names), app) =>
      { app with secrets := names, ssel := min app.ssel (names.length - 1) }
    -- READ の無い group
    | (some .denied, app) => { app with secrets := [] }
    | (_, app) => app

/-- identity の一覧を読み直す。 -/
def refreshIdentities (app : App) : App :=
  match app.req server .listIdentities with
  | (some (.identities ids), app) =>
    { app with identities := ids, isel := min app.isel (ids.length - 1) }
  | (_, app) => app

/-- 開いている group の ACL を読み直す。 -/
def refreshAcl (app : App) : App :=
  match app.req server (.groupAcl app.aclGroup) with
  | (some (.acl entries), app) =>
    { app with acl := entries, asel := min app.asel (entries.length - 1) }
  | (some .denied, app) =>
    { app with status := "denied: group admin required for ACL", mode := .normal }
  | (_, app) => app

/-! ## 一覧の画面 -/

/-- 焦点のある pane の選択を動かす。 -/
def moveSelection (app : App) (delta : Int) : App :=
  match app.focus with
  | .groups =>
    if app.groups.length = 0 then app
    else
      refreshSecrets server
        { app with gsel := ((app.gsel + delta) % app.groups.length).toNat, ssel := 0 }
  | .secrets =>
    if app.secrets.length = 0 then app
    else { app with ssel := ((app.ssel + delta) % app.secrets.length).toNat }

/-- 選ばれた secret を読み、答えの値から `opened` の画面を開く。 -/
def openSelectedSecret (opened : String → Nat → Bytes → Mode) (app : App) : App :=
  match app.selectedGroup, app.secrets[app.ssel]? with
  | some group, some (name, _) =>
    match app.req server (.get group.name name) with
    | (some (.secret value version), app) => { app with mode := opened name version value }
    | (some response, app) => app.showResponse response
    | (none, app) => app
  | _, _ => app

/-- 選ばれた secret を読んで見せる。 -/
def viewSelectedSecret (app : App) : App :=
  app.openSelectedSecret server fun name version value =>
    .viewSecret name version (fromUtf8Lossy value)

/-- 値の text を置いた編集の form。 -/
def editForm (name : String) (version : Nat) (current : String) : Form :=
  .new (.editSecret name version)
    ("edit secret '" ++ name ++ "' (v" ++ toString version ++ ")") [("value", current)] rfl

/-- 選ばれた secret を読んで、編集の form を開く。 -/
def editSelectedSecret (app : App) : App :=
  app.openSelectedSecret server fun name version value =>
    .form (editForm name version (fromUtf8Lossy value))

/-- 焦点をもう一つの pane に移す。 -/
def toggleFocus (app : App) : App :=
  { app with
    focus := match app.focus with
      | .groups => .secrets
      | .secrets => .groups }

/-- identity の画面を開く。 -/
def openIdentities (app : App) : App :=
  if app.serviceAdmin then { app.refreshIdentities server with mode := .identities }
  else { app with status := "identities: service admin only" }

/-- 焦点のある pane の、新しいものを作る form を開く。 -/
def openNew (app : App) : App :=
  match app.focus with
  | .groups =>
    if app.serviceAdmin then
      { app with mode := .form (.new .newGroup "new group" [("name", "")] rfl) }
    else { app with status := "create group: service admin only" }
  | .secrets =>
    if app.selectedGroup.isSome then
      { app with
        mode := .form (.new .newSecret "new secret" [("name", ""), ("value", "")] rfl) }
    else app

/-- 選ばれた group の ACL の画面を開く。 -/
def openAcl (app : App) : App :=
  match app.selectedGroup with
  | some group => refreshAcl server { app with aclGroup := group.name, mode := .acl }
  | none => app

/-- DEK を回す前に確認する。 -/
def confirmRotate (app : App) : App :=
  match app.selectedGroup with
  | some group => { app with mode := .confirm (.rotateDek group.name) }
  | none => app

/-- 選ばれた secret を消す前に確認する。 -/
def confirmDelete (app : App) : App :=
  match app.secrets[app.ssel]? with
  | some (name, version) => { app with mode := .confirm (.deleteSecret name version) }
  | none => app

/-- 二つの pane の画面で受ける key。 -/
def onKeyNormal (app : App) : Key → App
  | .char 'q' => { app with quit := true }
  | .char '?' => { app with mode := .help }
  | .tab | .left | .right | .char 'h' | .char 'l' => app.toggleFocus
  | .down | .char 'j' => app.moveSelection server 1
  | .up | .char 'k' => app.moveSelection server (-1)
  | .char 'r' => { refreshSecrets server (refreshGroups server app) with status := "refreshed" }
  | .char 'I' => app.openIdentities server
  | .char 'n' => app.openNew
  | .char 'a' => app.openAcl server
  | .char 'R' => app.confirmRotate
  | .enter =>
    if app.focus = .secrets then app.viewSelectedSecret server else app.refreshSecrets server
  | .char 'v' => if app.focus = .secrets then app.viewSelectedSecret server else app
  | .char 'e' => if app.focus = .secrets then app.editSelectedSecret server else app
  | .char 'd' => if app.focus = .secrets then app.confirmDelete else app
  | _ => app

/-! ## 確認 -/

/-- RotateDek を送る。 -/
def rotateDek (app : App) (group : String) : App :=
  match app.req server (.rotateDek group) with
  | (some .ok, app) => { app with status := "DEK rotated" }
  | (some other, app) => app.showResponse other
  | (none, app) => app

/-- 確認された操作を行う。 -/
def confirmed (app : App) : ConfirmAction → App
  | .deleteSecret name version =>
    match app.selectedGroup with
    | none => app
    | some group =>
      refreshSecrets server
        (app.reqShow server (.delete group.name name (UInt64.ofNat version)))
  | .removeIdentity name =>
    { refreshIdentities server (app.reqShow server (.removeIdentity name)) with
      mode := .identities }
  | .rotateDek group => app.rotateDek server group
  | .setServiceAdmin name serviceAdmin =>
    { refreshIdentities server (app.reqShow server (.setServiceAdmin name serviceAdmin)) with
      mode := .identities }

/-- 確認の画面で受ける key。 -/
def onKeyConfirm (app : App) (action : ConfirmAction) : Key → App
  | .char 'y' | .enter => confirmed server { app with mode := .normal } action
  | .char 'n' | .esc => { app with mode := action.leave }
  | _ => app

/-! ## form -/

/-- form の中身を送る。 -/
def submitForm (app : App) (form : Form) : App :=
  match form.kind with
  | .newGroup =>
    if form.value 0 = "" then { app with status := "group name must not be empty" }
    else
      refreshSecrets server
        (refreshGroups server (app.reqShow server (.createGroup (form.value 0))))
  | .newSecret =>
    if form.value 0 = "" then { app with status := "secret name must not be empty" }
    else
      match app.selectedGroup with
      | none => app
      | some group =>
        refreshSecrets server
          (app.reqShow server (.put group.name (form.value 0) (asBytes (form.value 1)) 0))
  | .editSecret name expectedVersion =>
    match app.selectedGroup with
    | none => app
    | some group =>
      refreshSecrets server
        (app.reqShow server
          (.put group.name name (asBytes (form.value 0)) (UInt64.ofNat expectedVersion)))
  | .addIdentity =>
    if form.value 0 = "" ∨ form.value 1 = "" then
      { app with status := "name and endpoint id are required", mode := .identities }
    else
      let serviceAdmin := trim (form.value 2) == "y" || trim (form.value 2) == "Y"
      { refreshIdentities server
          (app.reqShow server (.addIdentity (form.value 0) (form.value 1) serviceAdmin)) with
        mode := .identities }
  | .grantEntry =>
    match parsePerms (form.value 1) with
    | .error err => { app with status := err, mode := .acl }
    | .ok perms =>
      let app := app.reqShow server (.grant app.aclGroup (form.value 0) perms)
      refreshGroups server (refreshAcl server { app with mode := .acl })

/-- form で受ける key。 -/
def onKeyForm (app : App) (form : Form) : Key → App
  | .esc => { app with mode := form.kind.leave }
  | .tab | .down => { app with mode := .form (form.focusOn (form.focus + 1)) }
  | .up => { app with mode := .form (form.focusOn (form.focus + form.fields.length - 1)) }
  | .backspace => { app with mode := .form (form.edit pop) }
  | .char c => { app with mode := .form (form.edit (·.push c)) }
  | .enter =>
    if form.focus + 1 < form.fields.length then
      { app with mode := .form (form.focusOn (form.focus + 1)) }
    else submitForm server { app with mode := .normal } form
  | _ => app

/-! ## identity と ACL -/

/-- identity の画面で受ける key。 -/
def onKeyIdentities (app : App) : Key → App
  | .esc | .char 'q' | .char 'I' => { app with mode := .normal }
  | .down | .char 'j' => { app with isel := selectNext app.isel app.identities.length }
  | .up | .char 'k' => { app with isel := selectPrevious app.isel app.identities.length }
  | .char 'n' =>
    { app with
      mode := .form (.new .addIdentity "register identity"
        [("name", ""), ("endpoint id", ""), ("service admin (y/n)", "n")] rfl) }
  | .char 'd' =>
    match app.identities[app.isel]? with
    | some identity => { app with mode := .confirm (.removeIdentity identity.name) }
    | none => app
  | .char 's' =>
    match app.identities[app.isel]? with
    | some identity =>
      { app with mode := .confirm (.setServiceAdmin identity.name !identity.serviceAdmin) }
    | none => app
  | _ => app

/-- `r`、`w`、`a` は一つの許可を反転し、`x` は許可を空にする。 -/
def toggled (c : Char) (perms : UInt8) : UInt8 :=
  if c = 'r' then perms ^^^ 1
  else if c = 'w' then perms ^^^ 2
  else if c = 'a' then perms ^^^ 4
  else 0

/-- 選ばれた entry の許可を書き換える。group の一覧も読み直す。 -/
def togglePerms (app : App) (c : Char) : App :=
  match app.acl[app.asel]? with
  | none => app
  | some (identity, perms) =>
    refreshGroups server
      (refreshAcl server (app.reqShow server (.grant app.aclGroup identity (toggled c perms))))

/-- identity を選んであれば perms の欄から始める。 -/
def grantForm (group identity : String) : Form :=
  let form := Form.new .grantEntry ("grant on '" ++ group ++ "'")
    [("identity", identity), ("perms (r/rw/rwa/none)", "r")] rfl
  if identity = "" then form else form.focusOn 1

theorem grantForm_kind (group identity : String) :
    (grantForm group identity).kind = .grantEntry := by
  unfold grantForm
  simp only
  split
  · rfl
  · rfl

/-- 許可を書き込む form を開く。 -/
def openGrantForm (app : App) (identity : String) : App :=
  { app with mode := .form (grantForm app.aclGroup identity) }

/-- 許可を与える相手を選ぶ画面を開く。 -/
def openGrantPicker (app : App) : App :=
  match app.req server (.listIdentityNames app.aclGroup) with
  | (some (.identityNames names), app) =>
    if (grantCandidates names app.acl).isEmpty then
      { app with
        candidates := grantCandidates names app.acl
        status := "every identity already has a grant on '" ++ app.aclGroup ++ "'" }
    else
      { app with candidates := grantCandidates names app.acl, csel := 0, mode := .grantPicker }
  -- 古い server か、断られた
  | (some _, app) => app.openGrantForm ""
  | (none, app) => app

/-- ACL の画面で受ける key。 -/
def onKeyAcl (app : App) : Key → App
  | .esc | .char 'q' => { app with mode := .normal }
  | .down | .char 'j' => { app with asel := selectNext app.asel app.acl.length }
  | .up | .char 'k' => { app with asel := selectPrevious app.asel app.acl.length }
  | .char 'r' => app.togglePerms server 'r'
  | .char 'w' => app.togglePerms server 'w'
  | .char 'a' => app.togglePerms server 'a'
  | .char 'x' => app.togglePerms server 'x'
  | .char 'n' => app.openGrantPicker server
  | _ => app

/-- 相手を選ぶ画面で受ける key。 -/
def onKeyGrantPicker (app : App) : Key → App
  | .esc | .char 'q' => { app with mode := .acl }
  | .down | .char 'j' => { app with csel := selectNext app.csel app.candidates.length }
  | .up | .char 'k' => { app with csel := selectPrevious app.csel app.candidates.length }
  | .enter =>
    match app.candidates[app.csel]? with
    | some identity => app.openGrantForm identity
    | none => app
  | _ => app

/-! ## 画面の loop -/

/-- 画面ごとに key を振り分ける。 -/
def onKey (app : App) (key : Key) : App :=
  match app.mode with
  | .normal => app.onKeyNormal server key
  | .help | .viewSecret .. =>
    if key = .esc ∨ key = .enter ∨ key = .char 'q' then { app with mode := .normal } else app
  | .confirm action => app.onKeyConfirm server action key
  | .form form => app.onKeyForm server form key
  | .identities => app.onKeyIdentities key
  | .acl => app.onKeyAcl server key
  | .grantPicker => app.onKeyGrantPicker key

/-- 起動して両方の一覧を読んだところ。 -/
def start : App := refreshSecrets server (refreshGroups server new)

/-- 終わっていなければ key を一つ受ける。 -/
def step (app : App) (key : Key) : App := if app.quit then app else app.onKey server key

/-- 起動から、key の列を受けた後の状態。 -/
def run (keys : List Key) : App := keys.foldl (step server) (start server)

/-! ## 要求が残すもの

要求は `sent` の先頭に一つ足すほか、status しか変えない。
-/

theorem req_eq (app : App) (request : Request) :
    ∃ status, app.req server request =
      ((server app.sent request).toOption,
        { app with sent := ⟨request, server app.sent request⟩ :: app.sent, status }) := by
  unfold req
  cases server app.sent request with
  | ok response => exact ⟨_, rfl⟩
  | error err => exact ⟨_, rfl⟩

theorem showResponse_eq (app : App) (response : Response) :
    ∃ status, app.showResponse response = { app with status } := by
  cases response <;> exact ⟨_, rfl⟩

theorem reqShow_eq (app : App) (request : Request) :
    ∃ status, app.reqShow server request =
      { app with sent := ⟨request, server app.sent request⟩ :: app.sent, status } := by
  obtain ⟨status, hreq⟩ := app.req_eq server request
  unfold reqShow
  rw [hreq]
  cases (server app.sent request).toOption with
  | none => exact ⟨_, rfl⟩
  | some response =>
    obtain ⟨shown, hshown⟩ := showResponse_eq
      { app with sent := ⟨request, server app.sent request⟩ :: app.sent, status } response
    exact ⟨shown, hshown⟩

theorem mode_reqShow (app : App) (request : Request) :
    (app.reqShow server request).mode = app.mode := by
  obtain ⟨status, hshow⟩ := app.reqShow_eq server request
  rw [hshow]

theorem refreshGroups_eq (app : App) :
    ∃ serviceAdmin groups gsel status, app.refreshGroups server =
      { app with
        sent := ⟨.listGroups, server app.sent .listGroups⟩ :: app.sent
        serviceAdmin, groups, gsel, status } := by
  unfold refreshGroups req
  cases server app.sent .listGroups with
  | error err => exact ⟨_, _, _, _, rfl⟩
  | ok response => cases response <;> exact ⟨_, _, _, _, rfl⟩

theorem mode_refreshGroups (app : App) : (app.refreshGroups server).mode = app.mode := by
  obtain ⟨serviceAdmin, groups, gsel, status, hrefresh⟩ := app.refreshGroups_eq server
  rw [hrefresh]

theorem refreshIdentities_eq (app : App) :
    ∃ identities isel status, app.refreshIdentities server =
      { app with
        sent := ⟨.listIdentities, server app.sent .listIdentities⟩ :: app.sent
        identities, isel, status } := by
  unfold refreshIdentities req
  cases server app.sent .listIdentities with
  | error err => exact ⟨_, _, _, rfl⟩
  | ok response => cases response <;> exact ⟨_, _, _, rfl⟩

theorem refreshAcl_eq (app : App) :
    ∃ acl asel status mode, (mode = app.mode ∨ mode = .normal) ∧ app.refreshAcl server =
      { app with
        sent := ⟨.groupAcl app.aclGroup, server app.sent (.groupAcl app.aclGroup)⟩ :: app.sent
        acl, asel, status, mode } := by
  unfold refreshAcl req
  cases server app.sent (.groupAcl app.aclGroup) with
  | error err => exact ⟨_, _, _, _, .inl rfl, rfl⟩
  | ok response =>
    cases response with
    | denied => exact ⟨_, _, _, _, .inr rfl, rfl⟩
    | _ => exact ⟨_, _, _, _, .inl rfl, rfl⟩

/-- List の答えが残す secret の一覧。 -/
def listed (before : List (String × Nat)) : Except String Response → List (String × Nat)
  | .ok (.names names) => names
  | .ok .denied => []
  | _ => before

theorem refreshSecrets_none {app : App} (h : app.selectedGroup = none) :
    app.refreshSecrets server = { app with secrets := [] } := by
  unfold refreshSecrets
  rw [h]

theorem refreshSecrets_some {app : App} {group : GroupInfo} (h : app.selectedGroup = some group) :
    ∃ ssel status, app.refreshSecrets server =
      { app with
        sent := ⟨.list group.name, server app.sent (.list group.name)⟩ :: app.sent
        secrets := listed app.secrets (server app.sent (.list group.name))
        ssel, status } := by
  unfold refreshSecrets
  simp only [h, req]
  cases server app.sent (.list group.name) with
  | error err => exact ⟨_, _, rfl⟩
  | ok response => cases response <;> exact ⟨_, _, rfl⟩

theorem mode_refreshSecrets (app : App) : (app.refreshSecrets server).mode = app.mode := by
  cases hgroup : app.selectedGroup with
  | none => rw [refreshSecrets_none server hgroup]
  | some group =>
    obtain ⟨ssel, status, hrefresh⟩ := refreshSecrets_some server hgroup
    rw [hrefresh]

theorem openSelectedSecret_eq {app : App} {group : GroupInfo} {name : String} {listed : Nat}
    (opened : String → Nat → Bytes → Mode) (hgroup : app.selectedGroup = some group)
    (hname : app.secrets[app.ssel]? = some (name, listed)) :
    ∃ mode status, (mode = app.mode ∨ ∃ version value, mode = opened name version value) ∧
      app.openSelectedSecret server opened =
        { app with
          sent := ⟨.get group.name name, server app.sent (.get group.name name)⟩ :: app.sent
          mode, status } := by
  unfold openSelectedSecret
  simp only [hgroup, hname, req]
  cases server app.sent (.get group.name name) with
  | error err => exact ⟨_, _, .inl rfl, rfl⟩
  | ok response =>
    cases response with
    | secret value version => exact ⟨_, _, .inr ⟨_, _, rfl⟩, rfl⟩
    | _ => exact ⟨_, _, .inl rfl, rfl⟩

/-- 選ばれた secret が無ければ何もしない。 -/
theorem openSelectedSecret_none {app : App} (opened : String → Nat → Bytes → Mode)
    (h : app.selectedGroup = none ∨ app.secrets[app.ssel]? = none) :
    app.openSelectedSecret server opened = app := by
  unfold openSelectedSecret
  split
  · next group name version hgroup hname =>
    rcases h with h | h
    · rw [h] at hgroup
      cases hgroup
    · rw [h] at hname
      cases hname
  · rfl

theorem rotateDek_eq (app : App) (group : String) :
    ∃ status, app.rotateDek server group =
      { app with
        sent := ⟨.rotateDek group, server app.sent (.rotateDek group)⟩ :: app.sent
        status } := by
  unfold rotateDek req
  cases server app.sent (.rotateDek group) with
  | error err => exact ⟨_, rfl⟩
  | ok response => cases response <;> exact ⟨_, rfl⟩

theorem openGrantPicker_eq (app : App) :
    ∃ candidates csel mode status,
      (mode = app.mode ∨ mode = .grantPicker ∨ mode = .form (grantForm app.aclGroup "")) ∧
      app.openGrantPicker server =
        { app with
          sent := ⟨.listIdentityNames app.aclGroup,
            server app.sent (.listIdentityNames app.aclGroup)⟩ :: app.sent
          candidates, csel, mode, status } := by
  unfold openGrantPicker req
  cases server app.sent (.listIdentityNames app.aclGroup) with
  | error err => exact ⟨_, _, _, _, .inl rfl, rfl⟩
  | ok response =>
    cases response with
    | identityNames names =>
      simp only
      split
      · exact ⟨_, _, _, _, .inl rfl, rfl⟩
      · exact ⟨_, _, _, _, .inr (.inl rfl), rfl⟩
    | _ => exact ⟨_, _, _, _, .inr (.inr rfl), rfl⟩

end App

end Tui

end SecretBunker
