import SecretBunker.Server.Secrets
import SecretBunker.Wire.Decode

/-!
# wire を通した要求

`src/client.rs` の `Client::request` と、`src/server.rs` の `ProtocolHandler for Bunker` の loop。
要求は一つの stream に書かれ、server は `MAX_MSG` まで読んで処理し、応答を書いて次の stream を待つ。
読めない stream は処理されず、その connection を終わらせる。connection はいつでも切れうる。

復号は第三者の `ciborium` による。要求と応答の復号器は任意の関数とし、書き出したものを読み戻すことだけを
求める（`Decoders.Lawful`）。

wire を通した run は、要求をじかに `Bunker::handle` に渡した run と、client の受け取る答えまで一致する
（`exchange_transparent`）。成功を見た要求はちょうど一度、失敗を見た要求は高々一度だけ処理される。
-/

namespace SecretBunker

open Cbor Relational Store

variable {prim : Primitives} {inner : Inner} {amb : Ambient} {db : Db}

/-! ## version は `u64` に収まる -/

/-- どの secret の version も `u64` に収まる database。 -/
structure Representable (db : Db) : Prop where
  complete : Complete db
  bounded : ∀ g n row, secretDataCurrent db g n = some row → row.version < 2 ^ 64

namespace Representable

variable (h : Representable db)
include h

theorem secretVersion_lt (g : Nat) (n : String) : (secretVersion db g n).getD 0 < 2 ^ 64 := by
  rw [h.complete.secretVersion_eq]
  cases hrow : secretDataCurrent db g n with
  | none => exact Nat.two_pow_pos 64
  | some row => exact h.bounded g n row hrow

theorem of_same {db' : Db} (hc : Complete db')
    (hsame : ∀ g n, secretDataCurrent db' g n = secretDataCurrent db g n) : Representable db' :=
  ⟨hc, fun g n row hrow => h.bounded g n row (hsame g n ▸ hrow)⟩

theorem audit (log : List AuditRow) : Representable (db.withAudit log) :=
  h.of_same ⟨h.complete.current, h.complete.bounded, h.complete.positive⟩ fun _ _ => rfl

theorem readSecret_inRange (ident : Identity) (group name r : String) (key : AgeIdentity)
    (implicitAdmin : Bool) : (readSecret prim db ident group name r key implicitAdmin).InRange := by
  unfold readSecret
  split
  · trivial
  split
  · trivial
  · next gid _ _ sv hsv =>
    split
    · rw [secretCurrent_eq] at hsv
      obtain ⟨row, hrow, rfl⟩ := Option.map_eq_some_iff.mp hsv
      exact h.bounded gid name row hrow
    · trivial

theorem list_inRange (ident : Identity) (group : String) (implicitAdmin : Bool) :
    (list db ident group implicitAdmin).InRange := by
  unfold list
  split
  · trivial
  · next gid _ =>
    intro e he
    have hlt := h.secretVersion_lt gid e.1
    rwa [mem_listSecrets.mp he] at hlt

/-- put の返す版は u64 に収まる。 -/
theorem put_inRange (ident : Identity) (group name : String) (value : Bytes) (e : UInt64) :
    (Bunker.put prim inner amb db ident group name value e).1.InRange := by
  unfold Bunker.put
  split
  · trivial
  · next gid _ =>
    have hcur := h.secretVersion_lt gid name
    split
    · trivial
    split
    · trivial
    · dsimp only
      split
      · exact hcur
      · next hmax =>
        split
        · exact hcur
        split
        · trivial
        · split
          · next happlied =>
            -- `checked_add` を通ったので、次の version も溢れない
            rw [(putSecret_applied h.complete happlied).1]
            exact Nat.lt_of_not_le hmax
          · next hconflict =>
            rw [(putSecret_conflict hconflict).2.1]
            exact hcur
          · trivial

theorem delete_inRange (ident : Identity) (group name : String) (e : UInt64) :
    (Bunker.delete db ident group name e).1.InRange := by
  unfold Bunker.delete
  split
  · trivial
  · next gid _ =>
    split
    · trivial
    · next hconflict =>
      rw [(deleteSecret_conflict hconflict).2.1]
      exact h.secretVersion_lt gid name

end Representable

/-- version を返さない応答。 -/
def Response.versionless : Response → Bool
  | .secret .. | .version _ | .versionConflict _ | .names _ => false
  | _ => true

theorem Response.inRange_of_versionless {resp : Response} (h : resp.versionless = true) :
    resp.InRange := by
  cases resp with
  | secret | version | versionConflict | names => cases h
  | _ => trivial

/-! ### version を返さない要求 -/

section Versionless

variable (ident : Identity)

theorem versionless_createGroup (name : String) :
    (Bunker.createGroup prim inner amb db ident name).1.versionless = true := by
  unfold Bunker.createGroup
  split_ifs
  · rfl
  · rfl
  · split
    · rfl
    · split <;> rfl

theorem versionless_addIdentity (name endpoint : String) (serviceAdmin : Bool) :
    (Bunker.addIdentity prim db ident name endpoint serviceAdmin).1.versionless = true := by
  unfold Bunker.addIdentity
  split_ifs
  · rfl
  · split
    · rfl
    · split <;> rfl

theorem versionless_removeIdentity (name : String) :
    (Bunker.removeIdentity prim inner amb db ident name).1.versionless = true := by
  unfold Bunker.removeIdentity
  split_ifs
  · rfl
  · split
    · rfl
    · split_ifs
      · rfl
      · split
        · rfl
        · split <;> rfl

theorem versionless_listIdentities : (Bunker.listIdentities db ident).versionless = true := by
  unfold Bunker.listIdentities
  split_ifs <;> rfl

theorem versionless_applyGrant (gid : Nat) (group : String) (target : Identity) (p : UInt8) :
    (Bunker.applyGrant prim inner amb db ident gid group target p).1.versionless = true := by
  unfold Bunker.applyGrant
  split
  · split
    · rfl
    · split <;> rfl
  · split
    · rfl
    · split <;> rfl
  · split <;> rfl

theorem versionless_grant (group identity : String) (p : UInt8) :
    (Bunker.grant prim inner amb db ident group identity p).1.versionless = true := by
  unfold Bunker.grant
  split
  · rfl
  · split_ifs
    · rfl
    · split
      · rfl
      · split_ifs
        · rfl
        · exact versionless_applyGrant ident _ group _ p

theorem versionless_rotateDek (group : String) :
    (Bunker.rotateDek prim inner amb db ident group).1.versionless = true := by
  unfold Bunker.rotateDek
  split
  · rfl
  · split
    · rfl
    · split <;> rfl

theorem versionless_listGroups : (Bunker.listGroups db ident).versionless = true := by
  unfold Bunker.listGroups
  split_ifs <;> rfl

theorem versionless_groupAcl (group : String) (implicitAdmin : Bool) :
    (groupAcl db ident group implicitAdmin).versionless = true := by
  unfold groupAcl
  split <;> rfl

theorem versionless_listIdentityNames (group : String) (implicitAdmin : Bool) :
    (listIdentityNames db ident group implicitAdmin).versionless = true := by
  unfold listIdentityNames
  split <;> rfl

theorem versionless_setServiceAdmin (name : String) (serviceAdmin : Bool) :
    (Bunker.setServiceAdmin db ident name serviceAdmin).1.versionless = true := by
  unfold Bunker.setServiceAdmin
  split_ifs
  · rfl
  · split
    · rfl
    · split_ifs
      · rfl
      · split <;> rfl

end Versionless

/-- どの応答も、線の上の幅に収まる。 -/
theorem Representable.dispatchAs_inRange (h : Representable db) (ident : Identity) (req : Request) :
    (Bunker.dispatchAs prim inner amb db ident req).1.InRange := by
  cases req with
  | get group name => exact h.readSecret_inRange ident group name _ _ _
  | put group name value e => exact h.put_inRange ident group name value e
  | delete group name e => exact h.delete_inRange ident group name e
  | list group => exact h.list_inRange ident group _
  | createGroup name => exact Response.inRange_of_versionless (versionless_createGroup ident name)
  | addIdentity name endpoint serviceAdmin =>
    exact Response.inRange_of_versionless (versionless_addIdentity ident name endpoint serviceAdmin)
  | removeIdentity name =>
    exact Response.inRange_of_versionless (versionless_removeIdentity ident name)
  | listIdentities => exact Response.inRange_of_versionless (versionless_listIdentities ident)
  | grant group identity p =>
    exact Response.inRange_of_versionless (versionless_grant ident group identity p)
  | rotateDek group => exact Response.inRange_of_versionless (versionless_rotateDek ident group)
  | listGroups => exact Response.inRange_of_versionless (versionless_listGroups ident)
  | groupAcl group => exact Response.inRange_of_versionless (versionless_groupAcl ident group _)
  | listIdentityNames group =>
    exact Response.inRange_of_versionless (versionless_listIdentityNames ident group _)
  | setServiceAdmin name serviceAdmin =>
    exact Response.inRange_of_versionless (versionless_setServiceAdmin ident name serviceAdmin)

theorem Representable.handle_inRange (h : Representable db) (remote : String) (req : Request) :
    (Bunker.handle prim inner amb db remote req).response.InRange := by
  show (Bunker.dispatch prim inner amb db remote req).1.InRange
  unfold Bunker.dispatch
  split
  · trivial
  · exact h.dispatchAs_inRange _ req

/-- 要求は version を溢れさせない。書かれた version は応答にも現れる。 -/
theorem Representable.handle (h : Representable db) (remote : String) (req : Request) :
    Representable (Bunker.handle prim inner amb db remote req).db := by
  have hrange := @Representable.handle_inRange prim inner amb db h remote req
  have hstep := @secretStep_handle prim db inner amb h.complete remote req
  have hc := hstep.complete h.complete
  generalize (Bunker.handle prim inner amb db remote req).response = resp at hrange hstep
  generalize (Bunker.handle prim inner amb db remote req).db = db' at hstep hc ⊢
  cases hstep with
  | keep same _ => exact h.of_same hc same.secretDataCurrent
  | put _ _ _ _ stored =>
    refine ⟨hc, fun g n row hrow => ?_⟩
    rw [stored.current] at hrow
    split at hrow
    · cases hrow
      exact hrange
    · exact h.bounded g n row hrow
  | delete _ _ removed =>
    refine ⟨hc, fun g n row hrow => ?_⟩
    rw [removed.current] at hrow
    split at hrow
    · cases hrow
    · exact h.bounded g n row hrow

theorem Representable.handleRaw (h : Representable db) (read : Bytes → Option Request)
    (remote : String) (bytes : Bytes) :
    Representable (Bunker.handleRaw prim inner amb db read remote bytes).db := by
  unfold Bunker.handleRaw
  split
  · exact h.handle remote _
  · exact h.audit _

theorem representable_init {op backup endpoint name : String} {db₀ : Db}
    (h : Node.init op backup endpoint name = some db₀) : Representable db₀ := by
  refine ⟨complete_init h, fun g n row hrow => ?_⟩
  obtain ⟨m, t, ht, rfl, -⟩ := init_spec h
  cases hrow

/-! ## stream と connection -/

/-- stream の行方。client が読めない応答を断ると、connection は残ることも終わることもある。 -/
inductive Fate where
  | intact (survives : Bool)
  /-- 要求が届ききる前に connection が切れる。 -/
  | cutBefore
  /-- 応答が届ききる前に connection が切れる。 -/
  | cutAfter
  deriving DecidableEq

/-- 系の一歩。 -/
inductive RpcAct where
  | connect (conn : Nat) (remote : String)
  /-- `Client::request`。 -/
  | request (conn : Nat) (req : Request) (fate : Fate) (amb : Ambient)
  /-- ほかの実装の peer が書いた stream。書き方は `encode` と限らないので、`decode` の答えを問わない。 -/
  | stream (conn : Nat) (bytes : Bytes) (decoded : Option Request) (fate : Fate) (amb : Ambient)
  | disconnect (conn : Nat)

/-- `proto::decode` の二つの使い方。 -/
structure Decoders where
  request : Bytes → Option Request
  response : Bytes → Option Response

/-- 書き出した要求と応答を読み戻す。 -/
structure Decoders.Lawful (dec : Decoders) : Prop where
  request : Decodes dec.request Request.encode Request.ofValue
  response : Decodes dec.response Response.encode Response.ofValue

/-- database と、生きている connection の相手と、`Client::request` の返した答え。 -/
structure Net where
  db : Db
  peers : Nat → Option String
  answers : List (Option Response)

namespace Net

variable (dec : Decoders) (prim : Primitives) (inner : Inner)

/-- 接続のない始まり。 -/
def start (db : Db) : Net := ⟨db, fun _ => none, []⟩

/-- 接続を閉じる。 -/
def close (net : Net) (conn : Nat) : Net :=
  { net with peers := fun c => if c = conn then none else net.peers c }

/-- 待っている client に答えを一つ渡す。 -/
def answer (net : Net) (outcome : Option Response) : Net :=
  { net with answers := net.answers ++ [outcome] }

/-- `accept` の loop の一回。`read_to_end` に失敗した stream は処理されない。 -/
def accept (amb : Ambient) (db : Db) (read : Bytes → Option Request) (remote : String)
    (bytes : Bytes) (fate : Fate) : Option Bunker.Handled :=
  if fate = .cutBefore ∨ maxMsg < bytes.length then none
  else some (Bunker.handleRaw prim inner amb db read remote bytes)

/-- 応答を書いた後も connection が続くか。 -/
def stays (reply : Bytes) : Fate → Bool
  | .intact survives => reply.length ≤ maxMsg || survives
  | _ => false

/-- client の `read_to_end` と `decode`。 -/
def receive (reply : Bytes) : Fate → Option Response
  | .intact _ => if reply.length ≤ maxMsg then dec.response reply else none
  | _ => none

/-- 処理した後の database と connection。 -/
def settle (net : Net) (conn : Nat) (handled : Bunker.Handled) (fate : Fate) : Net :=
  if stays handled.response.encode fate then { net with db := handled.db }
  else { net.close conn with db := handled.db }

/-- `Client::request` のほかの動き。 -/
def background (net : Net) : RpcAct → Net
  | .connect conn remote =>
    { net with peers := fun c => if c = conn then some remote else net.peers c }
  | .disconnect conn => net.close conn
  | .stream conn bytes decoded fate amb =>
    match net.peers conn with
    | none => net
    | some remote =>
      match accept prim inner amb net.db (fun _ => decoded) remote bytes fate with
      | none => net.close conn
      | some handled => net.settle conn handled fate
  | .request .. => net

/-- stream を通した一歩。 -/
def step (net : Net) : RpcAct → Net
  | .request conn req fate amb =>
    match net.peers conn with
    | none => net.answer none
    | some remote =>
      match accept prim inner amb net.db dec.request remote req.encode fate with
      | none => (net.close conn).answer none
      | some handled =>
        (net.settle conn handled fate).answer (receive dec handled.response.encode fate)
  | act => net.background prim inner act

/-- 歩みの列。 -/
def exec (net : Net) (acts : List RpcAct) : Net := acts.foldl (step dec prim inner) net

/-! ## 要求をじかに渡す run -/

/-- client の受け取る答え。 -/
def outcome (response : Response) : Fate → Option Response
  | .intact _ => if response.encode.length ≤ maxMsg then some response else none
  | _ => none

/-- byte の列を通さず、要求をじかに `Bunker::handle` に渡す。 -/
def call (net : Net) (conn : Nat) (req : Request) (fate : Fate) (amb : Ambient) : Net :=
  match net.peers conn with
  | none => net.answer none
  | some remote =>
    if fate = .cutBefore ∨ maxMsg < req.encode.length then (net.close conn).answer none
    else
      let handled := Bunker.handle prim inner amb net.db remote req
      (net.settle conn handled fate).answer (outcome handled.response fate)

/-- stream を通さずに、要求をそのまま server に渡す一歩。 -/
def directStep (net : Net) : RpcAct → Net
  | .request conn req fate amb => net.call prim inner conn req fate amb
  | act => net.background prim inner act

/-- stream を通さない歩みの列。 -/
def directExec (net : Net) (acts : List RpcAct) : Net := acts.foldl (directStep prim inner) net

variable {dec prim inner} {net : Net}

theorem handleRaw_encode (hdec : dec.Lawful) {amb : Ambient} {db : Db} {remote : String}
    {req : Request} (h : req.encode.length ≤ maxMsg) :
    Bunker.handleRaw prim inner amb db dec.request remote req.encode =
      Bunker.handle prim inner amb db remote req := by
  have hdecode := req.decode_encode (h.trans_lt (by decide)) []
  rw [List.append_nil] at hdecode
  rw [Bunker.handleRaw, hdec.request req hdecode]

theorem receive_encode (hdec : dec.Lawful) {resp : Response} (h : resp.InRange) (fate : Fate) :
    receive dec resp.encode fate = outcome resp fate := by
  cases fate with
  | intact survives =>
    dsimp only [receive, outcome]
    split
    · next hlen =>
      have hdecode := Response.decode_encode h (hlen.trans_lt (by decide)) []
      rw [List.append_nil] at hdecode
      exact hdec.response resp hdecode
    · rfl
  | cutBefore => rfl
  | cutAfter => rfl

/-- 一歩の一致。 -/
theorem step_eq_directStep (hdec : dec.Lawful) (h : Representable net.db) (act : RpcAct) :
    net.step dec prim inner act = net.directStep prim inner act := by
  cases act with
  | request conn req fate amb =>
    dsimp only [step, directStep, call]
    cases net.peers conn with
    | none => rfl
    | some remote =>
      dsimp only [accept]
      by_cases hlost : fate = .cutBefore ∨ maxMsg < req.encode.length
      · rw [if_pos hlost, if_pos hlost]
      · have hfits : req.encode.length ≤ maxMsg := by
          rw [not_or] at hlost
          omega
        rw [if_neg hlost, if_neg hlost, handleRaw_encode hdec hfits]
        dsimp only
        rw [receive_encode hdec (h.handle_inRange remote req)]
  | connect | disconnect | stream => rfl

@[simp] theorem db_settle (conn : Nat) (handled : Bunker.Handled) (fate : Fate) :
    (net.settle conn handled fate).db = handled.db := by
  unfold settle
  split <;> rfl

@[simp] theorem answers_settle (conn : Nat) (handled : Bunker.Handled) (fate : Fate) :
    (net.settle conn handled fate).answers = net.answers := by
  unfold settle
  split <;> rfl

/-- どの一歩も、値を幅の中に保つ。 -/
theorem representable_step (h : Representable net.db) (act : RpcAct) :
    Representable (net.step dec prim inner act).db := by
  cases act with
  | connect conn remote => exact h
  | disconnect conn => exact h
  | stream conn bytes decoded fate amb =>
    dsimp only [step, background]
    cases net.peers conn with
    | none => exact h
    | some remote =>
      dsimp only [accept]
      split_ifs
      · exact h
      · simpa using h.handleRaw _ remote bytes
  | request conn req fate amb =>
    dsimp only [step]
    cases net.peers conn with
    | none => exact h
    | some remote =>
      dsimp only [accept]
      split_ifs
      · exact h
      · simpa [answer] using h.handleRaw _ remote req.encode

/-- `Client::request` が一つの要求にしたこと。 -/
structure Exchanged (prim : Primitives) (inner : Inner) (net next : Net) (conn : Nat)
    (req : Request) (fate : Fate) (amb : Ambient) (answer : Option Response) : Prop where
  answers : next.answers = net.answers ++ [answer]
  /-- 処理されないか、ちょうど一度処理される。 -/
  once : (answer = none ∧ next.db = net.db) ∨ ∃ remote, net.peers conn = some remote ∧
    req.encode.length ≤ maxMsg ∧
    next.db = (Bunker.handle prim inner amb net.db remote req).db ∧
    ∀ resp, answer = some resp → resp = (Bunker.handle prim inner amb net.db remote req).response
  /-- 切れなければ、上限に収まる要求には、上限に収まる応答が返る。 -/
  answered : ∀ remote survives, net.peers conn = some remote → fate = .intact survives →
    req.encode.length ≤ maxMsg →
    (Bunker.handle prim inner amb net.db remote req).response.encode.length ≤ maxMsg →
    answer = some (Bunker.handle prim inner amb net.db remote req).response

theorem outcome_eq_some {resp r : Response} {fate : Fate} (h : outcome resp fate = some r) :
    r = resp := by
  cases fate with
  | intact survives =>
    dsimp only [outcome] at h
    split at h
    · exact (Option.some.inj h).symm
    · cases h
  | cutBefore => cases h
  | cutAfter => cases h

/-- どの呼び出しも `Exchanged` である。 -/
theorem exchanged_call (net : Net) (conn : Nat) (req : Request) (fate : Fate) (amb : Ambient) :
    ∃ answer, Exchanged prim inner net (net.call prim inner conn req fate amb) conn req fate amb
      answer := by
  unfold call
  split
  · next hpeer =>
    refine ⟨none, rfl, Or.inl ⟨rfl, rfl⟩, fun remote _ h => ?_⟩
    rw [hpeer] at h
    cases h
  · next remote hpeer =>
    split
    · next hlost =>
      refine ⟨none, rfl, Or.inl ⟨rfl, rfl⟩, fun _ _ _ hfate hfits _ => ?_⟩
      rcases hlost with hcut | hbig
      · rw [hcut] at hfate
        cases hfate
      · omega
    · next hlost =>
      rw [not_or] at hlost
      refine ⟨_, by simp only [answer, answers_settle]; rfl, Or.inr ⟨remote, hpeer, by omega,
        by simp [answer], fun resp h => outcome_eq_some h⟩, ?_⟩
      rintro remote' survives hpeer' rfl - hreply
      obtain rfl := Option.some.inj (hpeer.symm.trans hpeer')
      exact if_pos hreply

theorem representable_exec (h : Representable net.db) (acts : List RpcAct) :
    Representable (net.exec dec prim inner acts).db :=
  List.foldlRecOn (motive := fun net => Representable net.db) acts (step dec prim inner) h
    fun _ h act _ => representable_step h act

/-- **wire は透明である。** `init` した database から始めて、どの peer がどう connection を張り、どの順に
要求し、どこで切れても、wire を通した run は、要求をじかに `Bunker::handle` に渡した run と database も
connection も client の答えも一致する。そのどこで出した要求も、高々一度だけ処理され、成功の答えは処理の
応答そのものである。切れず、要求も応答も上限に収まれば、必ず答えが返る。 -/
theorem exchange_transparent (hdec : dec.Lawful) {op backup endpoint name : String} {db₀ : Db}
    (hinit : Node.init op backup endpoint name = some db₀) (acts : List RpcAct) :
    (start db₀).exec dec prim inner acts = (start db₀).directExec prim inner acts ∧
      ∀ conn req fate amb, ∃ answer,
        Exchanged prim inner ((start db₀).exec dec prim inner acts)
          ((start db₀).exec dec prim inner (acts ++ [.request conn req fate amb])) conn req fate amb
          answer := by
  have hstart : Representable (start db₀).db := representable_init hinit
  constructor
  · unfold exec directExec
    generalize start db₀ = net at hstart ⊢
    induction acts generalizing net with
    | nil => rfl
    | cons act acts ih =>
      rw [List.foldl_cons, List.foldl_cons, ← step_eq_directStep hdec hstart act]
      exact ih _ (representable_step hstart act)
  · intro conn req fate amb
    have hrun := @representable_exec dec prim inner _ hstart acts
    have hsnoc : (start db₀).exec dec prim inner (acts ++ [.request conn req fate amb]) =
        ((start db₀).exec dec prim inner acts).call prim inner conn req fate amb :=
      List.foldl_append.trans (step_eq_directStep hdec hrun (.request conn req fate amb))
    rw [hsnoc]
    exact exchanged_call _ conn req fate amb

/-- `decode` そのもの。 -/
def plainDecoders : Decoders := ⟨decode Request.ofValue, decode Response.ofValue⟩

theorem exchange_transparent_sample :
    ∃ answer, Exchanged plain sampleInner ((start sampleDb).exec plainDecoders plain sampleInner
        [.connect 0 (samplePeer 'a')])
      ((start sampleDb).exec plainDecoders plain sampleInner ([.connect 0 (samplePeer 'a')] ++
        [.request 0 (.createGroup "g") (.intact true) (sampleAmbient 1)])) 0 (.createGroup "g")
      (.intact true) (sampleAmbient 1) answer :=
  (exchange_transparent ⟨fun _ h => h, fun _ h => h⟩ init_sampleDb [.connect 0 (samplePeer 'a')]).2 0 (.createGroup "g")
    (.intact true) (sampleAmbient 1)

end Net

end SecretBunker
