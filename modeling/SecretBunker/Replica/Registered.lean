import SecretBunker.Replica.Outline
import SecretBunker.Replica.Server
import SecretBunker.Replica.Session

/-!
# mirror に登録されている endpoint

応答するかどうかは identity の表で決まる。反映は表に行を足すが、掃くのは `full_resync` の終わりと
group を落とした後だけである。掃いた後は、どの group の ACL にも無い endpoint はすべて拒まれる。
`Changed` で状態を写しただけの間は、外れた endpoint の行が次の掃除まで残りうるが、
そこから読めるものは無い。
-/

namespace SecretBunker

open Interleaving Relational Store

/-- どの identity も、どこかの group の ACL に現れる。 -/
def Swept (mirror : Db) : Prop := ∀ i ∈ mirror.identity, ∃ a ∈ mirror.groupAcl, a.identityId = i.id

/-- mirror の ACL の行。 -/
def Listed (mirror : Db) (entry : String × String × UInt8) : Prop :=
  ∃ g gid, groupId mirror g = some gid ∧ entry ∈ aclEntriesFull mirror gid

/-- どの group の ACL にも現れない endpoint。 -/
def Unlisted (mirror : Db) (endpoint : String) : Prop := ∀ x, Listed mirror x → x.2.1 ≠ endpoint

theorem swept_gc (mirror : Db) : Swept (gcUnreferencedIdentities mirror) := by
  obtain ⟨hacl, hids⟩ := gc_spec mirror
  intro i hi
  obtain ⟨a, ha, hai⟩ := ((hids i).mp hi).2
  exact ⟨a, (hacl a).mpr ha, hai⟩

/-- ACL の行の identity は、その group の一覧に現れる。 -/
theorem listed_of_acl {mirror : Db} {i : Identity} (hi : i ∈ mirror.identity) {a : AclRow}
    (ha : a ∈ mirror.groupAcl) (hai : a.identityId = i.id) :
    Listed mirror (i.name, i.endpointId, a.perms) := by
  obtain ⟨g, hg, hga⟩ := mirror.aclGroup a ha
  refine ⟨g.name, g.id, groupId_eq_some.mpr hg, mem_aclEntriesFull.mpr ⟨i, hi, rfl, rfl, ?_⟩⟩
  rw [← hai, show g.id = a.groupId from hga]
  exact ha

namespace Swept

variable {mirror : Db} (h : Swept mirror)

include h

theorem listed {i : Identity} (hi : i ∈ mirror.identity) :
    ∃ p, Listed mirror (i.name, i.endpointId, p) := by
  obtain ⟨a, ha, hai⟩ := h i hi
  exact ⟨a.perms, listed_of_acl hi ha hai⟩

theorem unregistered {e : String} (hu : Unlisted mirror e) : identityByEndpoint mirror e = none := by
  rw [Option.eq_none_iff_forall_ne_some]
  intro i hfound
  obtain ⟨hi, rfl⟩ := identityByEndpoint_eq_some.mp hfound
  obtain ⟨p, hp⟩ := h.listed hi
  exact hu _ hp rfl

/-- 掃いた mirror では、外れた endpoint は何を求めても拒まれる。 -/
theorem denied (prim : Primitives) (self : ReplicaInner) (now : Int) {e : String}
    (hu : Unlisted mirror e) (req : Request) :
    (ReplicaServer.handle prim self now mirror e req).1 = .denied := by
  show ReplicaServer.dispatch prim self mirror e req = _
  unfold ReplicaServer.dispatch
  rw [h.unregistered hu]

/-- 掃いた mirror の一覧に載る名前は、どこかの ACL の名前である。 -/
theorem identityNames (prim : Primitives) (self : ReplicaInner) (now : Int) {caller group : String}
    {names : List String}
    (hn : (ReplicaServer.handle prim self now mirror caller (.listIdentityNames group)).1 =
      .identityNames names) {n : String} (hmem : n ∈ names) : ∃ e p, Listed mirror (n, e, p) := by
  rw [(replica_answers prim self now mirror caller group n).2.2.2] at hn
  unfold answer at hn
  split at hn
  · cases hn
  · cases hn
    obtain ⟨i, hi, rfl⟩ := List.mem_map.mp hmem
    obtain ⟨p, hp⟩ := h.listed (mem_sortOn.mp hi)
    exact ⟨_, p, hp⟩

end Swept

/-! ## 掃かれていない mirror -/

/-- どの ACL からも外れた endpoint に返りうる応答。読めるものも、group の名前も無い。 -/
def Powerless (self : ReplicaInner) (req : Request) (resp : Response) : Prop :=
  match req with
  | .get .. | .list .. | .groupAcl .. | .listIdentityNames .. | .listIdentities => resp = .denied
  | .listGroups => resp = .denied ∨ resp = .groups false []
  | _ => resp = .denied ∨ resp = .readOnlyReplica self.authoritative.text

theorem gate_of_unlisted {mirror : Db} {e : String} (hu : Unlisted mirror e) {needed : UInt8}
    (hn : needed ≠ 0) (g : String) : gate mirror e g needed = none := by
  rw [gate_eq hn]
  cases hg : groupId mirror g with
  | none => rfl
  | some gid =>
    have hnone : (aclEntriesFull mirror gid).find? (fun x => x.2.1 == e) = none := by
      rw [List.find?_eq_none]
      exact fun x hx => by simpa using hu x ⟨g, gid, hg, hx⟩
    simp [permsIn, hnone, hn.symm]

theorem groups_of_unlisted {mirror : Db} {ident : Identity} (hi : ident ∈ mirror.identity)
    (hu : Unlisted mirror ident.endpointId) : groupsForIdentity mirror ident.id = [] := by
  rw [List.eq_nil_iff_forall_not_mem]
  intro x hx
  obtain ⟨gid, -, ha⟩ := mem_groupsForIdentity.mp hx
  exact hu _ (listed_of_acl hi ha rfl) rfl

/-- 掃かれていない mirror でも、外れた endpoint に力は残らない。 -/
theorem powerless_of_unlisted (prim : Primitives) (self : ReplicaInner) (now : Int) {mirror : Db}
    {e : String} (hu : Unlisted mirror e) (req : Request) :
    Powerless self req (ReplicaServer.handle prim self now mirror e req).1 := by
  have hread := fun g => gate_of_unlisted hu (by decide : permRead ≠ 0) g
  have hadmin := fun g => gate_of_unlisted hu (by decide : permAdmin ≠ 0) g
  have hanswers := replica_answers prim self now mirror e
  have hdispatch : (ReplicaServer.handle prim self now mirror e req).1 = .denied ∨
      ∃ ident ∈ mirror.identity, ident.endpointId = e ∧
        (ReplicaServer.handle prim self now mirror e req).1 =
          ReplicaServer.dispatchAs prim self mirror ident req := by
    show ReplicaServer.dispatch prim self mirror e req = _ ∨ ∃ ident ∈ _, _ ∧
      ReplicaServer.dispatch prim self mirror e req = _
    unfold ReplicaServer.dispatch
    cases hi : identityByEndpoint mirror e with
    | none => exact Or.inl rfl
    | some ident =>
      obtain ⟨hmem, he⟩ := identityByEndpoint_eq_some.mp hi
      exact Or.inr ⟨ident, hmem, he, rfl⟩
  cases req with
  | get g n =>
    refine (hanswers g n).1.trans ?_
    rw [hread]
    rfl
  | list g =>
    refine (hanswers g "").2.1.trans ?_
    rw [hread]
    rfl
  | groupAcl g =>
    refine (hanswers g "").2.2.1.trans ?_
    rw [hadmin]
    rfl
  | listIdentityNames g =>
    refine (hanswers g "").2.2.2.trans ?_
    rw [hadmin]
    rfl
  | listIdentities =>
    rcases hdispatch with h | ⟨_, _, _, h⟩
    · exact h
    · exact h
  | listGroups =>
    rcases hdispatch with h | ⟨ident, hmem, rfl, h⟩
    · exact Or.inl h
    · refine Or.inr (h.trans ?_)
      show Response.groups false ((groupsForIdentity mirror ident.id).map _) = _
      rw [groups_of_unlisted hmem hu]
      rfl
  | _ => exact hdispatch.imp id fun ⟨_, _, _, h⟩ => h

/-! ## 手続き -/

namespace Replica

variable {Υ : Type} {up : Upstream Υ} {prim : Primitives} {own : String} {l : Link Υ}

/-- 終わりの mirror だけを問う世界。途中で失敗してよく、読み手が動かすのは audit の行だけである。 -/
def ending : Setting (Link Υ) (Link Υ) where
  view := id
  put := fun _ l => l
  put_view := fun _ => rfl
  inv := fun _ => True
  rely := fun l l' => SameRows l.mirror l'.mirror
  refl := fun _ => .refl _
  trans := .trans
  mayFail := True

theorem ends_any {α : Type} (p : Prog (Link Υ) α) (l : Link Υ) :
    ending.Safe (fun _ _ => True) p l := by
  induction p generalizing l with
  | ret a => exact fun _ _ _ => trivial
  | fail => trivial
  | act update next ih => exact fun v _ _ => Or.inr ⟨trivial, ih _ _⟩

/-- mirror に触れない動作は、mirror についての主張を保つ。 -/
theorem ends_keep {P : Link Υ → Prop} (hs : ending.StableAt P) {f : Link Υ → Link Υ}
    (hf : ∀ l, (f l).mirror = l.mirror) (h : P l) :
    ending.Safe (fun _ => P) (Prog.modify f) l := by
  refine Setting.Safe.atomic (fun _ => hs) fun v hv _ => ⟨trivial, hs v (f v) ?_ (hs _ _ hv h)⟩
  show SameRows v.mirror (f v).mirror
  rw [hf]
  exact .refl _

theorem ends_emitAll {P : Link Υ → Prop} (hs : ending.StableAt P) (events : List ReplicaEvent)
    (h : P l) : ending.Safe (fun _ => P) (events.forM emit) l := by
  refine Setting.Safe.forM (fun _ => hs) ?_ trivial h
  exact fun _ _ _ _ hw => ends_keep hs (fun _ => rfl) hw

theorem stableAt_swept : (ending (Υ := Υ)).StableAt fun l => Swept l.mirror := by
  rintro l l' ⟨log, hm⟩ h
  rw [hm]
  exact h

theorem stableAt_held (name : String) :
    (ending (Υ := Υ)).StableAt fun l => groupId l.mirror name ≠ none := by
  rintro l l' ⟨log, hm⟩ h
  rw [hm]
  exact h

theorem ends_gcIdentities (l : Link Υ) :
    ending.Safe (fun _ l => Swept l.mirror) gcIdentities l :=
  Setting.Safe.atomic (fun _ => stableAt_swept) fun v _ _ => ⟨trivial, swept_gc v.mirror⟩

theorem ends_dropGroupAndGc (name : String) (l : Link Υ) :
    ending.Safe (fun _ l => Swept l.mirror) (dropGroupAndGc name) l :=
  Setting.Safe.bind trivial (ends_any _ l) fun _ l _ _ => ends_gcIdentities l

theorem ends_fullResync (stash : List GroupSyncState) (l : Link Υ) :
    ending.Safe (fun _ l => Swept l.mirror) (fullResync up prim own stash) l := by
  refine Setting.Safe.bind trivial (ends_any _ l) fun _ l _ _ => ?_
  refine Setting.Safe.bind trivial (ends_any _ l) fun _ l _ _ => ?_
  refine Setting.Safe.bind trivial (ends_any _ l) fun _ l _ _ => ?_
  refine Setting.Safe.bind trivial (ends_gcIdentities l) fun _ l _ h => ?_
  exact ends_keep stableAt_swept (fun _ => rfl) h

/-- 写し終えた group は mirror にある。 -/
theorem ends_commitState (state : GroupSyncState) (fetched : List FetchedSecret) (l : Link Υ) :
    ending.Safe (fun _ l => groupId l.mirror state.name ≠ none)
      (commitState prim own state fetched) l := by
  refine Setting.Safe.attempt (fun _ => stableAt_held state.name) (fun _ _ _ _ => trivial) ?_
  exact fun v changes u hv _ hu => ⟨trivial, (held_of_commit hu).1⟩

theorem ends_applyGroupState (state : GroupSyncState) (l : Link Υ) :
    ending.Safe (fun o l => o ≠ .denied → groupId l.mirror state.name ≠ none)
      (applyGroupState up prim own state) l := by
  have hs : (ending (Υ := Υ)).StableAt fun l => groupId l.mirror state.name ≠ none :=
    stableAt_held state.name
  refine Setting.Safe.bind trivial (ends_any _ l) fun needed l _ _ => ?_
  refine Setting.Safe.bind trivial (ends_any _ l) fun r l _ _ => ?_
  cases r with
  | none => exact Setting.Safe.ret (fun _ _ _ _ h => absurd rfl h) fun h => absurd rfl h
  | some fetched =>
    refine Setting.Safe.bind trivial (ends_commitState state _ l) fun changes l _ h => ?_
    refine Setting.Safe.bind trivial (ends_emitAll hs _ h) fun _ l _ h => ?_
    refine Setting.Safe.bind trivial (ends_keep hs (fun _ => rfl) h) fun _ l _ h => ?_
    exact Setting.Safe.ret (fun _ _ hr h ho => hs _ _ hr (h ho)) fun _ => h

/-- `Changed` の手続きの終わり：group が残っていないなら、掃いた後である。 -/
def Settled (name : String) (l : Link Υ) : Prop := groupId l.mirror name = none → Swept l.mirror

theorem stableAt_settled (name : String) : (ending (Υ := Υ)).StableAt (Settled name) := by
  rintro l l' ⟨log, hm⟩ h
  unfold Settled
  rw [hm]
  exact h

/-- 取り寄せた状態は、求めた group のものである。 -/
theorem ends_fetchGroupState (group : String) (l : Link Υ) :
    ending.Safe (fun r _ => ∀ state, r = some state → state.name = group)
      (fetchGroupState up group) l := by
  refine Setting.Safe.bind trivial (ends_any _ l) fun messages l _ _ => ?_
  refine Setting.Safe.orFail (fun _ _ _ _ h => h) (fun _ => trivial) ?_
  rintro r hr state rfl
  exact Sync.collectGroup_name hr

/-- 一つの group の同期は、残すか、掃いて終わる。 -/
theorem ends_syncOneGroup (state : GroupSyncState) (l : Link Υ) :
    ending.Safe (fun _ => Settled state.name) (syncOneGroup up prim own state) l := by
  have hdrop : ∀ l : Link Υ, ending.Safe (fun _ => Settled state.name)
      (dropGroupAndGc state.name) l :=
    fun l => (ends_dropGroupAndGc state.name l).mono fun _ _ _ h _ => h
  have hkeep : ∀ l : Link Υ, groupId l.mirror state.name ≠ none →
      ending.Safe (fun _ => Settled state.name) (pure ()) l :=
    fun l h => Setting.Safe.ret (stableAt_settled _) fun hnone => absurd hnone h
  refine Setting.Safe.bind trivial (ends_applyGroupState state l) fun o l _ h => ?_
  match o with
  | .denied => exact hdrop l
  | .applied false => exact hkeep l (h nofun)
  | .applied true =>
    refine Setting.Safe.bind trivial (ends_fetchGroupState state.name l) fun r l _ hname => ?_
    match r with
    | none => exact hdrop l
    | some fresh =>
      refine Setting.Safe.bind trivial (ends_applyGroupState fresh l) fun o l _ h => ?_
      rw [hname fresh rfl] at h
      match o with
      | .denied => exact hdrop l
      | .applied _ => exact hkeep l (h nofun)

/-- 手続きを終えたときに言えること。 -/
def Job.Ended : Job → Link Υ → Prop
  | .resync _, l => Swept l.mirror
  | .group name, l => Settled name l

theorem ends_task (job : Job) (l : Link Υ) :
    ending.Safe (fun _ => job.Ended) (job.task up prim own) l := by
  cases job with
  | resync stash => exact ends_fullResync stash l
  | group name =>
    refine Setting.Safe.bind trivial (ends_fetchGroupState name l) fun r l _ hname => ?_
    cases r with
    | none => exact (ends_dropGroupAndGc name l).mono fun _ _ _ h _ => h
    | some state =>
      rw [← hname state rfl]
      exact ends_syncOneGroup state l

/-- 走っている手続きは、終わりの主張に行き着く。 -/
def Session.Ending (s : Session Υ) : Prop :=
  match s.phase with
  | .working job rest => ending.Safe (fun _ => job.Ended) rest s.link
  | .live job => job.Ended s.link
  | _ => True

theorem stableAt_ended (job : Job) : (ending (Υ := Υ)).StableAt job.Ended := by
  cases job with
  | resync stash => exact stableAt_swept
  | group name => exact stableAt_settled name

theorem ending_moves {s s' : Session Υ} (hm : Session.Moves up prim own s s') (h : s.Ending) :
    s'.Ending := by
  cases hm with
  | @idle l l' phase hidle =>
    obtain ⟨log, now, rfl⟩ := hidle
    have hr : ending.rely l { l with mirror := l.mirror.withAudit log, now } := ⟨log, rfl⟩
    cases phase with
    | working job p => exact Setting.Safe.stable h hr
    | live job => exact stableAt_ended job _ _ hr h
    | _ => trivial
  | listed => exact ends_task _ _
  | pushed => exact ends_task _ _
  | @acted l job update next => exact ((h l (ending.refl l) trivial).resolve_left id).2
  | @finished l job => exact h l (ending.refl l) trivial
  | _ => trivial

/-- **掃いた後の replica に登録されているのは、mirror のどこかの ACL に載る endpoint だけである。**
`full_resync` を終えたとき、または `Changed` の手続きがその group を mirror に残さず終えたときは、
ACL に無い endpoint はどの要求も拒まれ、その名前も一覧に現れない。
写しただけで終えたときに外れた endpoint の行が残っていても、得られるのは
`ReadOnlyReplica` の差し向けと空の group の一覧だけである。 -/
theorem unlisted_denied_when_swept (prim : Primitives) (self : ReplicaInner)
    (l₀ : Link Replies) (acts : List Act) :
    let s := (Session.mk l₀ .down).exec scripted prim self.endpointHex acts
    (∀ job, s.phase = .live job → (∀ g, job = .group g → groupId s.link.mirror g = none) →
      (∀ e, Unlisted s.link.mirror e → ∀ now req,
        (ReplicaServer.handle prim self now s.link.mirror e req).1 = .denied) ∧
      ∀ now caller group names,
        (ReplicaServer.handle prim self now s.link.mirror caller (.listIdentityNames group)).1 =
            .identityNames names →
          ∀ n ∈ names, ∃ e p, Listed s.link.mirror (n, e, p)) ∧
    ∀ e, Unlisted s.link.mirror e → ∀ now req,
      Powerless self req (ReplicaServer.handle prim self now s.link.mirror e req).1 := by
  intro s
  have hstart : (Session.mk l₀ .down).Ending := trivial
  have hend : s.Ending := Session.exec_induction (fun _ _ => ending_moves) hstart acts
  refine ⟨?_, fun e hu now req => powerless_of_unlisted prim self now hu req⟩
  intro job hphase hgone
  have hswept : Swept s.link.mirror := by
    unfold Session.Ending at hend
    rw [hphase] at hend
    cases job with
    | resync stash => exact hend
    | group g => exact hend (hgone g rfl)
  exact ⟨fun e hu now req => hswept.denied prim self now hu req,
    fun now caller group names hn n hmem => hswept.identityNames prim self now hn hmem⟩

/-- group が一つだけの mirror では、その ACL を見れば足りる。 -/
theorem unlisted_of_single {mirror : Db} {gid : Nat} {name e : String}
    (hrows : mirror.secretGroup.rows = [⟨gid, name⟩])
    (h : ∀ x ∈ aclEntriesFull mirror gid, x.2.1 ≠ e) : Unlisted mirror e := by
  rintro x ⟨g, k, hg, hx⟩
  have hg : ⟨k, g⟩ ∈ mirror.secretGroup.rows := groupId_eq_some.mp hg
  rw [hrows, List.mem_singleton] at hg
  obtain ⟨rfl, -⟩ := GroupRow.mk.inj hg
  exact h x hx

def sampleSelf : ReplicaInner := ⟨"replica", ⟨"key"⟩, ⟨"bunker"⟩⟩

def sampleAcl : List AclEntry := [⟨"alice", "ea", 7⟩, ⟨"bob", "eb", 1⟩]

/-- 次の取り寄せには、一人を外した ACL が返る。 -/
def sampleLink : Link Replies :=
  ⟨[[.group "g" (sampleAcl.take 1) [], .fetchDone]], .empty, 0, [], false, none⟩

/-- 二人の ACL を写す `full_resync` まで。 -/
def sampleResync : List Act :=
  [.connect, .receive (.group "g" sampleAcl []), .receive .manifestDone]
    ++ List.replicate 8 .advance

theorem unlisted_denied_when_swept_sample :
    ((Session.mk sampleLink .down).exec scripted plain sampleSelf.endpointHex sampleResync).phase =
        .live (.resync [{ name := "g", acl := sampleAcl }]) ∧
      (ReplicaServer.handle plain sampleSelf 0
        ((Session.mk sampleLink .down).exec scripted plain sampleSelf.endpointHex
          sampleResync).link.mirror "ez" (.createGroup "h")).1 = .denied := by
  refine ⟨rfl, ((unlisted_denied_when_swept plain sampleSelf sampleLink sampleResync).1 _ rfl
    fun g h => nomatch h).1 "ez" ?_ 0 _⟩
  exact @unlisted_of_single _ 1 "g" _ (by decide +kernel) (by decide +kernel)

/-- そこから `Changed` で一人を外した task。 -/
def sampleShrunk : Session Replies :=
  (Session.mk sampleLink .down).exec scripted plain sampleSelf.endpointHex
    (sampleResync ++ [.receive (.changed "g")] ++ List.replicate 5 .advance)

/-- 外れた endpoint は、次の掃除まで `ReadOnlyReplica` を受け取り、名前も一覧に残る。 -/
theorem shrunk_still_registered :
    sampleShrunk.phase = .live (.group "g") ∧ Unlisted sampleShrunk.link.mirror "eb" ∧
      (ReplicaServer.handle plain sampleSelf 0 sampleShrunk.link.mirror "eb"
        (.createGroup "h")).1 = .readOnlyReplica "bunker" ∧
      (ReplicaServer.handle plain sampleSelf 0 sampleShrunk.link.mirror "ea"
        (.listIdentityNames "g")).1 = .identityNames ["alice", "bob"] := by
  refine ⟨rfl, ?_, by decide +kernel, by decide +kernel⟩
  have hrows : sampleShrunk.link.mirror.secretGroup.rows = [⟨1, "g"⟩] := by decide +kernel
  exact unlisted_of_single hrows (by decide +kernel)

end Replica

end SecretBunker
