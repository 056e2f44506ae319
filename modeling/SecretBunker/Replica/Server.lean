import SecretBunker.Server.Refinement
import SecretBunker.Server.Sync
import SecretBunker.Store.Mirror

/-!
# replica の応答

`src/replica.rs` の `ReplicaServer`。読み取りは権威 node と同じ関数で手元の mirror から答え、
変更は権威 node へ差し向ける。service admin の迂回は使わない。

応答は、呼び手の許可と group の見え方だけで決まる（`gate_eq`、`openSecret_eq`）。
揃った mirror では、それがどちらも上流と一致する（`answers_as_upstream`）。
-/

namespace SecretBunker

open Relational Store SyncServer

/-- serve に使う replica の情報。 -/
structure ReplicaInner where
  endpointHex : String
  ageIdentity : AgeIdentity
  authoritative : EndpointId
  deriving DecidableEq

namespace ReplicaServer

variable (prim : Primitives) (self : ReplicaInner) (now : Int) (mirror : Db)

/-- 登録された identity の要求。 -/
def dispatchAs (ident : Identity) : Request → Response
  | .get group name =>
    readSecret prim mirror ident group name self.endpointHex self.ageIdentity false
  | .list group => list mirror ident group false
  | .listGroups => listGroupsExplicit mirror ident
  | .groupAcl group => groupAcl mirror ident group false
  | .listIdentityNames group => listIdentityNames mirror ident group false
  | .listIdentities => .denied
  | .put .. | .delete .. | .createGroup .. | .addIdentity .. | .removeIdentity .. | .grant ..
  | .rotateDek .. | .setServiceAdmin .. => .readOnlyReplica self.authoritative.text

/-- mirror に identity の無い peer には、何を聞かれても一様に拒む。 -/
def dispatch (remote : String) (req : Request) : Response :=
  match identityByEndpoint mirror remote with
  | none => .denied
  | some ident => dispatchAs prim self mirror ident req

/-- 要求一つ。mirror に残るのは replica 自身の audit の行だけである。 -/
def handle (remote : String) (req : Request) : Response × Db :=
  let outcome := dispatch prim self mirror remote req
  (outcome, Store.audit mirror prim now remote req.op req.target (auditOutcome outcome))

def handleRaw (decode : Bytes → Option Request) (remote : String) (frame : Bytes) :
    Response × Db :=
  match decode frame with
  | some req => handle prim self now mirror remote req
  | none => (.denied, Store.audit mirror prim now remote "malformed" "" "denied")

end ReplicaServer

/-! ## 呼び手の許可 -/

/-- ACL の列が endpoint に与える許可。 -/
def permsIn (acl : List (String × String × UInt8)) (endpoint : String) : UInt8 :=
  ((acl.find? fun e => e.2.1 == endpoint).map (·.2.2)).getD 0

/-- 登録の有無から group の許可までを通した判定。 -/
def gate (db : Db) (endpoint group : String) (needed : UInt8) : Option Nat :=
  (identityByEndpoint db endpoint).bind fun ident => authorizeGroup db ident group needed false

variable {db db' : Db}

/-- endpoint の行は ACL に高々一つである。 -/
theorem permsIn_eq {gid : Nat} {e : String × String × UInt8} (he : e ∈ aclEntriesFull db gid) :
    permsIn (aclEntriesFull db gid) e.2.1 = e.2.2 := by
  unfold permsIn
  cases hf : (aclEntriesFull db gid).find? fun x => x.2.1 == e.2.1 with
  | none => exact absurd (beq_self_eq_true _) (List.find?_eq_none.mp hf e he)
  | some x =>
    have hx := List.mem_of_find?_eq_some hf
    have hxe : x.2.1 = e.2.1 := by simpa using List.find?_some hf
    obtain ⟨i, hi, hin, hie, hia⟩ := mem_aclEntriesFull.mp hx
    obtain ⟨j, hj, hjn, hje, hja⟩ := mem_aclEntriesFull.mp he
    obtain rfl : i = j :=
      Table.eq_of_conflict hi hj (Or.inr (Or.inl (hie.trans (hxe.trans hje.symm))))
    exact congrArg AclRow.perms (Table.eq_of_conflict hia hja ⟨rfl, rfl⟩)

theorem perms_eq_permsIn {ident : Identity} (hi : ident ∈ db.identity) (gid : Nat) :
    perms db ident.id gid = permsIn (aclEntriesFull db gid) ident.endpointId := by
  unfold perms
  cases ha : aclRow db ident.id gid with
  | some a =>
    obtain ⟨ha, hai, hag⟩ := aclRow_eq_some.mp ha
    have he : (ident.name, ident.endpointId, a.perms) ∈ aclEntriesFull db gid :=
      mem_aclEntriesFull.mpr ⟨ident, hi, rfl, rfl, by rw [← hai, ← hag]; exact ha⟩
    exact (permsIn_eq he).symm
  | none =>
    unfold permsIn
    cases hf : (aclEntriesFull db gid).find? fun x => x.2.1 == ident.endpointId with
    | none => rfl
    | some x =>
      have hxe : x.2.1 = ident.endpointId := by simpa using List.find?_some hf
      obtain ⟨j, hj, -, hje, hja⟩ := mem_aclEntriesFull.mp (List.mem_of_find?_eq_some hf)
      obtain rfl : j = ident := Table.eq_of_conflict hj hi (Or.inr (Or.inl (hje.trans hxe)))
      exact absurd hja (aclRow_eq_none.mp ha _ · rfl rfl)

theorem permsIn_of_unregistered {endpoint : String} (h : identityByEndpoint db endpoint = none)
    (gid : Nat) : permsIn (aclEntriesFull db gid) endpoint = 0 := by
  unfold permsIn
  cases hf : (aclEntriesFull db gid).find? fun x => x.2.1 == endpoint with
  | none => rfl
  | some x =>
    have hxe : x.2.1 = endpoint := by simpa using List.find?_some hf
    obtain ⟨j, hj, -, hje, -⟩ := mem_aclEntriesFull.mp (List.mem_of_find?_eq_some hf)
    rw [identityByEndpoint_eq_some.mpr ⟨hj, hje.trans hxe⟩] at h
    cases h

/-- **判定は group の ACL だけで決まる。** 登録されていない呼び手は許可を持たない呼び手と同じである。 -/
theorem gate_eq {needed : UInt8} (hn : needed ≠ 0) (endpoint group : String) :
    gate db endpoint group needed = (groupId db group).bind fun gid =>
      if permsIn (aclEntriesFull db gid) endpoint &&& needed = needed then some gid else none := by
  unfold gate
  cases hi : identityByEndpoint db endpoint with
  | some ident =>
    obtain ⟨hmem, rfl⟩ := identityByEndpoint_eq_some.mp hi
    show (groupId db group).bind _ = _
    refine congrArg _ (funext fun gid => ?_)
    rw [← perms_eq_permsIn hmem]
    rfl
  | none =>
    cases groupId db group with
    | none => rfl
    | some gid =>
      simp [permsIn_of_unregistered hi, hn.symm]

/-! ## 上流の応答 -/

/-- endpoint の service admin の印を落とした database。 -/
def withoutServiceAdmin (db : Db) (endpoint : String) : Db :=
  match identityByEndpoint db endpoint with
  | some ident => db.setServiceAdmin ident.name false
  | none => db

theorem aclEntriesFull_setServiceAdmin (db : Db) (name : String) (admin : Bool) (gid : Nat) :
    aclEntriesFull (db.setServiceAdmin name admin) gid = aclEntriesFull db gid := by
  refine sortOn_congr (aclEntriesFull_nodup _ gid) (aclEntriesFull_nodup db gid) fun e => ?_
  refine mem_aclEntriesFull.trans (Iff.trans ?_ mem_aclEntriesFull.symm)
  constructor
  · rintro ⟨j, hj, hn, he, ha⟩
    obtain ⟨i, hi, rfl⟩ := mem_setServiceAdmin.mp hj
    rw [Db.flagAdmin_id] at ha
    exact ⟨i, hi, by simpa using hn, by simpa using he, ha⟩
  · rintro ⟨i, hi, hn, he, ha⟩
    refine ⟨_, mem_setServiceAdmin.mpr ⟨i, hi, rfl⟩, by simpa using hn, by simpa using he, ?_⟩
    rw [Db.flagAdmin_id]
    exact ha

theorem aclEntriesFull_withoutServiceAdmin (db : Db) (endpoint : String) (gid : Nat) :
    aclEntriesFull (withoutServiceAdmin db endpoint) gid = aclEntriesFull db gid := by
  unfold withoutServiceAdmin
  split
  · exact aclEntriesFull_setServiceAdmin db _ false gid
  · rfl

/-- 印のほかの行は変わらない。 -/
theorem withoutServiceAdmin_rows (db : Db) (endpoint : String) :
    (withoutServiceAdmin db endpoint).secretGroup = db.secretGroup ∧
      (withoutServiceAdmin db endpoint).dekWrap = db.dekWrap ∧
      (withoutServiceAdmin db endpoint).secret = db.secret ∧
      (withoutServiceAdmin db endpoint).secretVersion = db.secretVersion := by
  unfold withoutServiceAdmin
  split <;> exact ⟨rfl, rfl, rfl, rfl⟩

theorem serviceAdmin_withoutServiceAdmin {endpoint : String} {ident : Identity}
    (h : identityByEndpoint (withoutServiceAdmin db endpoint) endpoint = some ident) :
    ident.serviceAdmin = false := by
  unfold withoutServiceAdmin at h
  split at h
  · next i hi =>
    obtain ⟨hj, hje⟩ := identityByEndpoint_eq_some.mp h
    obtain ⟨k, hk, rfl⟩ := mem_setServiceAdmin.mp hj
    obtain ⟨hi, hie⟩ := identityByEndpoint_eq_some.mp hi
    obtain rfl : k = i := Table.eq_of_conflict hk hi
      (Or.inr (Or.inl ((by simpa using hje : k.endpointId = endpoint).trans hie.symm)))
    unfold Db.flagAdmin
    rw [if_pos rfl]
  · next hnone =>
    rw [hnone] at h
    cases h

/-! ## 応答の形 -/

section Answers

variable {prim : Primitives}

/-- 判定を通った group の secret の応答。 -/
def secretAnswer (prim : Primitives) (db : Db) (group name recipient : String)
    (identity : AgeIdentity) (gid : Nat) : Response :=
  match secretCurrent db gid name with
  | none => .denied
  | some sv =>
    match openSecret prim db gid group name sv recipient identity with
    | some value => .secret value sv.version
    | none => internalError

/-- 判定に通らなければ拒む。 -/
def answer (gated : Option Nat) (f : Nat → Response) : Response :=
  match gated with
  | none => .denied
  | some gid => f gid

theorem replica_answers (prim : Primitives) (self : ReplicaInner) (now : Int) (mirror : Db) (e g n : String) :
    (ReplicaServer.handle prim self now mirror e (.get g n)).1 =
        answer (gate mirror e g permRead)
          (secretAnswer prim mirror g n self.endpointHex self.ageIdentity) ∧
      (ReplicaServer.handle prim self now mirror e (.list g)).1 =
        answer (gate mirror e g permRead) (fun gid => .names (listSecrets mirror gid)) ∧
      (ReplicaServer.handle prim self now mirror e (.groupAcl g)).1 =
        answer (gate mirror e g permAdmin) (fun gid => .acl (groupAclEntries mirror gid)) ∧
      (ReplicaServer.handle prim self now mirror e (.listIdentityNames g)).1 =
        answer (gate mirror e g permAdmin)
          (fun _ => .identityNames ((listIdentities mirror).map (·.name))) := by
  unfold ReplicaServer.handle ReplicaServer.dispatch gate
  cases identityByEndpoint mirror e with
  | none => exact ⟨rfl, rfl, rfl, rfl⟩
  | some ident => exact ⟨rfl, rfl, rfl, rfl⟩

/-- 権威 node の読み取りの答え。 -/
theorem bunker_answers (prim : Primitives) (inner : Inner) (amb : Ambient) {db : Db} {e : String}
    (h : ∀ ident, identityByEndpoint db e = some ident → ident.serviceAdmin = false)
    (g n : String) :
    (Bunker.handle prim inner amb db e (.get g n)).response =
        answer (gate db e g permRead)
          (secretAnswer prim db g n recipientOperational inner.opIdentity) ∧
      (Bunker.handle prim inner amb db e (.list g)).response =
        answer (gate db e g permRead) (fun gid => .names (listSecrets db gid)) ∧
      (Bunker.handle prim inner amb db e (.groupAcl g)).response =
        answer (gate db e g permAdmin) (fun gid => .acl (groupAclEntries db gid)) := by
  unfold Bunker.handle Bunker.dispatch gate
  dsimp only
  cases hi : identityByEndpoint db e with
  | none => exact ⟨rfl, rfl, rfl⟩
  | some ident =>
    dsimp only [Bunker.dispatchAs]
    rw [h ident hi]
    exact ⟨rfl, rfl, rfl⟩

/-! ## 揃った mirror -/

/-- mirror は、`own` が READ を持つ上流の group を過不足なく写している。 -/
def Converged (upstream mirror : Db) (own : String) : Prop :=
  ∀ g, viewOf mirror own g = (syncReadAuthorized upstream own g).map (groupView upstream own)

theorem groupAclEntries_eq_map (db : Db) (gid : Nat) :
    groupAclEntries db gid = (aclEntriesFull db gid).map fun e => (e.1, e.2.2) := by
  unfold groupAclEntries aclEntriesFull sortOn
  rw [List.map_insertionSort (fun a b : String × String × UInt8 => a.1 ≤ b.1)
    (fun a b : String × UInt8 => a.1 ≤ b.1) (fun e => (e.1, e.2.2)) _ fun _ _ _ _ => Iff.rfl]
  rw [List.map_filterMap]
  simp only [Option.map_map, Function.comp_def]

variable {own : String} {gid : Nat}

theorem dekWrap_of_wraps {gid' : Nat}
    (h : wrapsForRecipient db' gid' own = wrapsForRecipient db gid own) (v : Nat) :
    dekWrap db' gid' v own = dekWrap db gid v own := by
  refine Option.ext fun b => ?_
  rw [dekWrap_eq_some, dekWrap_eq_some, ← mem_wrapsForRecipient (w := (v, b)), h,
    mem_wrapsForRecipient]

theorem openSecret_congr {gid' : Nat} {group name recipient : String} {sv : SecretVersion}
    {key : AgeIdentity}
    (h : dekWrap db' gid' sv.dekVersion recipient = dekWrap db gid sv.dekVersion recipient) :
    openSecret prim db' gid' group name sv recipient key =
      openSecret prim db gid group name sv recipient key := by
  unfold openSecret
  rw [h]

/-- 上流では、読める version の自分宛ての wrap は operational の wrap と同じ DEK に開く。 -/
theorem openSecret_own (laws : prim.Lawful) {inner : Inner} (hk : KeyWrap prim db)
    (hm : inner.Matches prim db) (hread : HoldsRead db own gid) {key : AgeIdentity}
    (hkey : ∀ r, recipientForEndpointHex prim own = some r → r = prim.toPublic key)
    (group name : String) (sv : SecretVersion) :
    openSecret prim db gid group name sv own key =
      openSecret prim db gid group name sv recipientOperational inner.opIdentity := by
  unfold openSecret
  by_cases hv : ⟨gid, sv.dekVersion⟩ ∈ db.groupDek
  · obtain ⟨b, dek, hb, hopen⟩ := unwrapOperational_isSome laws hk hm hv
    obtain ⟨b', hb'⟩ := (hk.recipients hv own).mpr (Or.inr (Or.inr hread))
    obtain ⟨dek', hdek⟩ := hk.opens hv
    obtain rfl := (hdek _ b (dekWrap_eq_some.mp hb)).eq_of_unwrap laws hopen
    obtain ⟨seed, recipient, hrec, rfl⟩ := hdek own b' hb'
    rw [recipientOf_endpoint (length_of_holdsRead hk.endpoints hread)] at hrec
    rw [hkey recipient hrec] at hb'
    rw [dekWrap_eq_some.mpr hb', hb, Option.bind_eq_bind, Option.bind_eq_bind, Option.bind_some,
      Option.bind_some, unwrapDek_wrapDek laws, hopen]
  · -- 登録されていない version の wrap は、誰宛てのものも無い
    have hnone : ∀ r, dekWrap db gid sv.dekVersion r = none := by
      intro r
      rw [Option.eq_none_iff_forall_ne_some]
      exact fun b hb => hv (hk.registered _ (dekWrap_eq_some.mp hb))
    rw [hnone, hnone]
    rfl

theorem answer_gate {needed : UInt8} (hn : needed ≠ 0) {e g : String}
    (hg : groupId db g = some gid) (f : Nat → Response) :
    answer (gate db e g needed) f =
      if permsIn (aclEntriesFull db gid) e &&& needed = needed then f gid else .denied := by
  rw [gate_eq hn, hg, Option.bind_some]
  split <;> rfl

/-- 上流の group `gid` が mirror では `gm` にあり、見え方が一致している。 -/
theorem Converged.located {upstream mirror : Db} {g : String} (hc : Converged upstream mirror own)
    (hg : syncReadAuthorized upstream own g = some gid) :
    ∃ gm, groupId mirror g = some gm ∧ groupView mirror own gm = groupView upstream own gid := by
  have hv := hc g
  rw [hg] at hv
  exact Option.map_eq_some_iff.mp hv

/-- 同じ view からは、同じ値が開く。 -/
theorem secretAnswer_upstream (laws : prim.Lawful) {upstream mirror : Db} {inner : Inner}
    (hk : KeyWrap prim upstream) (hm : inner.Matches prim upstream) {gm : Nat}
    (hread : HoldsRead upstream own gid) {key : AgeIdentity}
    (hkey : ∀ r, recipientForEndpointHex prim own = some r → r = prim.toPublic key)
    (hview : groupView mirror own gm = groupView upstream own gid) (e g n : String) :
    secretAnswer prim mirror g n own key gm =
      secretAnswer prim (withoutServiceAdmin upstream e) g n recipientOperational inner.opIdentity
        gid := by
  obtain ⟨-, hw, hs, hv⟩ := withoutServiceAdmin_rows upstream e
  obtain ⟨-, hwraps, -, hsecrets⟩ := GroupView.ext_iff.mp hview
  have hcurrent : secretCurrent mirror gm n = secretCurrent upstream gid n := congrFun hsecrets n
  unfold secretAnswer
  rw [hcurrent, (secretCurrent_of_slot (slot_congr hs hv gid n)).2]
  cases secretCurrent upstream gid n with
  | none => rfl
  | some sv =>
    have hopen : openSecret prim mirror gm g n sv own key =
        openSecret prim (withoutServiceAdmin upstream e) gid g n sv recipientOperational
          inner.opIdentity := by
      rw [openSecret_congr (dekWrap_of_wraps hwraps sv.dekVersion),
        openSecret_own laws hk hm hread hkey]
      refine openSecret_congr ?_
      unfold dekWrap wrapRow
      rw [hw]
    dsimp only
    rw [hopen]

/-- **replica の読み取りは、service admin の迂回の無い権威 node の答えである。**
呼び手が mirror に登録されていなくても、許可の一部しか持たなくても変わらない。 -/
theorem answers_as_upstream (laws : prim.Lawful) {upstream mirror : Db} {op : AgeIdentity}
    {inner : Inner} (hk : KeyWrap prim upstream) (hnew : Bunker.new prim upstream op = some inner)
    {self : ReplicaInner}
    (hkey : ∀ r, recipientForEndpointHex prim self.endpointHex = some r →
      r = prim.toPublic self.ageIdentity)
    (hc : Converged upstream mirror self.endpointHex) {g : String} {gid : Nat}
    (hg : syncReadAuthorized upstream self.endpointHex g = some gid) (e n : String) (now : Int)
    (amb : Ambient) :
    ∀ req ∈ [Request.get g n, .list g, .groupAcl g],
      (ReplicaServer.handle prim self now mirror e req).1 =
        (Bunker.handle prim inner amb (withoutServiceAdmin upstream e) e req).response := by
  obtain ⟨hgid, i, hi, hie, hbit⟩ := syncReadAuthorized_eq_some.mp hg
  have hread : HoldsRead upstream self.endpointHex gid := holdsRead_iff.mpr ⟨i, hi, hie, hbit⟩
  obtain ⟨gm, hgm, hview⟩ := hc.located hg
  obtain ⟨hacl, -, hlisted, -⟩ := GroupView.ext_iff.mp hview
  obtain ⟨hrows, -, hs, -⟩ := withoutServiceAdmin_rows upstream e
  have hacl : aclEntriesFull (withoutServiceAdmin upstream e) gid = aclEntriesFull mirror gm :=
    (aclEntriesFull_withoutServiceAdmin upstream e gid).trans hacl.symm
  have hlisted : listSecrets (withoutServiceAdmin upstream e) gid = listSecrets mirror gm := by
    refine Eq.trans ?_ hlisted.symm
    unfold listSecrets
    rw [hs]
    rfl
  have hsecret := secretAnswer_upstream laws hk (matches_of_new laws hnew).1 hread hkey hview e g n
  have hgid : groupId (withoutServiceAdmin upstream e) g = some gid := by
    rw [groupId_congr hrows]
    exact hgid
  -- どちらの応答も、同じ ACL の判定を通した group の中身である
  obtain ⟨hget, hlist, hacls, -⟩ := replica_answers prim self now mirror e g n
  obtain ⟨hget', hlist', hacls'⟩ := bunker_answers prim inner amb
    (fun _ => serviceAdmin_withoutServiceAdmin) g n
  rw [answer_gate (by decide) hgm] at hget hlist hacls
  rw [answer_gate (by decide) hgid, hacl] at hget' hlist' hacls'
  simp only [List.forall_mem_cons, List.not_mem_nil, false_implies, implies_true, and_true]
  refine ⟨?_, ?_, ?_⟩
  · rw [hget, hget', hsecret]
  · rw [hlist, hlist', hlisted]
  · rw [hacls, hacls', groupAclEntries_eq_map, groupAclEntries_eq_map, hacl]

end Answers

/-- bob が READ を持つ唯一の group に、secret が一つある上流。 -/
def sampleUpstream : Db := Node.exec plain sampleDb (sampleCalls [('a', .createGroup "g"),
  ('a', .addIdentity "bob" (samplePeer 'b') false), ('a', .grant "g" "bob" permRead),
  ('a', .put "g" "n" [7] 0)])

/-- bob の replica。 -/
def sampleReplica : ReplicaInner := ⟨samplePeer 'b', ⟨"b"⟩, ⟨"bunker"⟩⟩

theorem keyWrap_sampleUpstream : KeyWrap plain sampleUpstream :=
  (consistent_exec plain_lawful (consistent_init (by decide) init_sampleDb) _).keys

theorem sampleUpstream_facts :
    sampleUpstream.secretGroup.rows = [⟨1, "g"⟩] ∧
      syncReadAuthorized sampleUpstream (samplePeer 'b') "g" = some 1 ∧
      Bunker.new plain sampleUpstream ⟨"o"⟩ = some sampleInner ∧
      (ReplicaServer.handle plain sampleReplica 0 sampleUpstream (samplePeer 'a')
        (.get "g" "n")).1 = .secret [7] 1 := by
  decide +kernel

/-- すべての group を読める replica から見れば、上流自身も揃った mirror である。 -/
theorem converged_sampleUpstream : Converged sampleUpstream sampleUpstream (samplePeer 'b') := by
  obtain ⟨hrows, hauth, -⟩ := sampleUpstream_facts
  intro g
  by_cases hg : g = "g"
  · rw [hg, hauth, viewOf, (syncReadAuthorized_eq_some.mp hauth).1]
  · have hnone : groupId sampleUpstream g = none := by
      refine groupId_eq_none.mpr fun r hr he => hg ?_
      have hr : r ∈ sampleUpstream.secretGroup.rows := hr
      rw [hrows, List.mem_singleton] at hr
      rw [← he, hr]
    have hdenied : syncReadAuthorized sampleUpstream (samplePeer 'b') g = none := by
      rw [Option.eq_none_iff_forall_ne_some]
      intro gid h
      rw [(syncReadAuthorized_eq_some.mp h).1] at hnone
      cases hnone
    rw [hdenied, viewOf, hnone]

theorem answers_as_upstream_sample :
    (ReplicaServer.handle plain sampleReplica 0 sampleUpstream (samplePeer 'a') (.get "g" "n")).1 =
        .secret [7] 1 ∧
      (Bunker.handle plain sampleInner (sampleAmbient 9)
        (withoutServiceAdmin sampleUpstream (samplePeer 'a')) (samplePeer 'a')
          (.get "g" "n")).response = .secret [7] 1 := by
  obtain ⟨-, hauth, hnew, hget⟩ := sampleUpstream_facts
  have hkey : recipientForEndpointHex plain sampleReplica.endpointHex = some ⟨"b"⟩ := by
    decide +kernel
  have hsame := answers_as_upstream plain_lawful keyWrap_sampleUpstream hnew
    (fun r h => Option.some.inj (h.symm.trans hkey)) converged_sampleUpstream hauth
    (samplePeer 'a') "n" 0 (sampleAmbient 9) (.get "g" "n") List.mem_cons_self
  exact ⟨hget, hsame.symm.trans hget⟩

end SecretBunker
