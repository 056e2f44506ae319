import SecretBunker.Replica.Chronicle
import SecretBunker.Replica.Resync
import SecretBunker.Replica.Server

/-!
# 静まった系の収束

要求が止み、event が捌け、replica が message をすべて処理したとき、mirror は上流を READ の範囲に
絞ったものになっている。

snapshot も行も上流の別々の時刻に読まれるので、途中の mirror はどの時刻の上流とも一致しない。
代わりに、どの group についても「上流の今に揃っている」か「知らせがまだ届いていない」かの
どちらかであること（`Pend`）を保つ。変わった group は必ず知らされ（`unmoved_handle`）、知らせは
取りこぼしの印、batch、`wire` と形を変えながら、replica が取り寄せ直すまで失われない。

範囲の外の group の知らせだけは batch を閉じるときに捨てられるが、その group は mirror に無い。
-/

namespace SecretBunker

open Broadcast Interleaving Relational Replica.System Store SyncServer

namespace Replica

/-! ## 知らせ -/

/-- stream の task が覚えている範囲。 -/
def taskScope : Task → Option (List String)
  | .manifest cached _ | .live cached | .batching cached _ _ => some cached
  | _ => none

/-- 範囲を読んだ stream が、`g` の知らせをまだ送っていない。 -/
def Unsent (st : Stream) (g : String) : Prop :=
  taskScope st.task ≠ none ∧ (st.events.Holds g ∨
    ∃ cached lagged batch, st.task = .batching cached lagged batch ∧ (lagged = true ∨ g ∈ batch))

/-- `g` の範囲の出入りが、まだ replica に知らされていない。 -/
def Queued (s : System) (g : String) : Prop :=
  .scopeChanged ∈ s.wire ∨ ∃ st, s.stream = some st ∧ Unsent st g

/-- `g` の変化が、まだ replica に知らされていない。 -/
def Pend (s : System) (g : String) : Prop := .changed g ∈ s.wire ∨ Queued s g

/-- stream の範囲は `names` である。 -/
def Manifested (s : System) (names : List String) : Prop :=
  .scopeChanged ∈ s.wire ∨ ∃ st, s.stream = some st ∧ taskScope st.task = some names

def InScope (s : System) (g : String) : Prop := ∃ names, Manifested s names ∧
  (.scopeChanged ∈ s.wire ∨ g ∈ names)

theorem pend_of_scopeChanged {s : System} (h : .scopeChanged ∈ s.wire) (g : String) : Pend s g :=
  Or.inr (Or.inl h)

variable {prim : Primitives} {inner : Inner} {own : String} {wrote : Writing}

/-- 手続きの知る事実。どれも、知らせが残っている間は問わない。 -/
def Standing (own : String) (wrote : Writing) (s : System) : Fact → Prop
  | .named g => InScope s g
  | .state x => InScope s x.name ∧
      (Pend s x.name ∨ ∃ gid, syncReadAuthorized s.upstream own x.name = some gid ∧
        x = snapshotGroup s.upstream gid x.name own) ∧
      ∀ g gid, syncReadAuthorized s.upstream own g = some gid →
        Pend s g ∨ ∀ e ∈ aclEntriesFull s.upstream gid, Agrees (effectiveAcl x.acl) e.1 e.2.1
  | .gone g => Pend s g ∨ syncReadAuthorized s.upstream own g = none
  | .granted g gid => InScope s g ∧ groupId s.upstream g = some gid ∧
      (Pend s g ∨ syncReadAuthorized s.upstream own g = some gid)
  | .fetched g f => InScope s g ∧ (∃ value, wrote g f.name f.toSecretDataRow value) ∧
      (Pend s g ∨ ∃ gid, syncReadAuthorized s.upstream own g = some gid ∧
        secretDataCurrent s.upstream gid f.name = some f.toSecretDataRow)
  | .missing g n => InScope s g ∧ (Pend s g ∨ ∃ gid,
      syncReadAuthorized s.upstream own g = some gid ∧ secretDataCurrent s.upstream gid n = none)
  | .done g => (Pend s g ∨ Matched s.upstream s.mirror own g) ∧
      (InScope s g ∨ groupId s.mirror g = none)
  | .manifest names => Manifested s names

/-- 知らせの抜けていない世界。 -/
structure Tended (prim : Primitives) (inner : Inner) (own : String) (wrote : Writing) (s : System) :
    Prop where
  attested : Attested prim inner wrote s.upstream
  rows : ∀ {g n r}, (slotOf s.mirror g n).2 = some r → ∃ value, wrote g n r value
  hosting : ∀ st, s.stream = some st → Hosting own st
  todo : ∀ st cached todo, s.stream = some st → st.task = .manifest cached todo →
    ∀ x ∈ todo, groupId s.upstream x.2 = some x.1
  /-- 覚えている範囲は今の範囲か、出入りの知らせが残っている。 -/
  scope : ∀ st cached, s.stream = some st → taskScope st.task = some cached →
    ∀ g, Queued s g ∨ (g ∈ cached ↔ syncReadAuthorized s.upstream own g ≠ none)
  /-- 範囲の外の group は知らされない。 -/
  pushes : ∀ g, .changed g ∈ s.wire → InScope s g

/-! ## 環境の歩み -/

/-- 上流と stream の一歩。動いた group の知らせは残り、消える知らせは範囲の外のものだけである。 -/
structure Onward (own : String) (s s' : System) : Prop where
  mirror : SameRows s.mirror s'.mirror
  groups : ∀ {g gid}, groupId s.upstream g = some gid → groupId s'.upstream g = some gid
  scope : ∀ {g}, InScope s g → InScope s' g
  manifest : ∀ {names}, Manifested s names → Manifested s' names
  kept : ∀ {g}, Pend s g → Pend s' g ∨ ¬ InScope s g ∧ syncReadAuthorized s'.upstream own g = none
  unmoved : ∀ g, Pend s' g ∨ Unmoved s.upstream s'.upstream g

variable {s s' : System} {g : String} {cached : List String}

/-- 知らせか今の上流かの主張は残る。知らせの消えるのは、範囲の外で READ も無いときだけである。 -/
theorem Onward.carry (h : Onward own s s') {P P' : Prop} (hp : Pend s g ∨ P)
    (hout : ¬ InScope s g → syncReadAuthorized s'.upstream own g = none → P')
    (himp : ¬ Pend s' g → P → P') : Pend s' g ∨ P' := by
  by_cases hpend : Pend s' g
  · exact Or.inl hpend
  · rcases hp with hp | hP
    · exact (h.kept hp).imp id fun hc => hout hc.1 hc.2
    · exact Or.inr (himp hpend hP)

/-- 範囲の中の知らせは失われない。 -/
theorem Onward.carry_scope (h : Onward own s s') {P P' : Prop} (hs : InScope s g)
    (hp : Pend s g ∨ P) (himp : ¬ Pend s' g → P → P') : Pend s' g ∨ P' :=
  h.carry hp (fun hout _ => absurd hs hout) himp

/-- 知らせが残っていないなら、認可は前のままである。 -/
theorem Onward.authorized (h : Onward own s s') (hp : ¬ Pend s' g) :
    syncReadAuthorized s'.upstream own g = syncReadAuthorized s.upstream own g :=
  syncReadAuthorized_of_unmoved ((h.unmoved g).resolve_left hp) own

theorem Onward.untouched (h : Onward own s s') {gid : Nat} (hp : ¬ Pend s' g)
    (hg : syncReadAuthorized s.upstream own g = some gid) :
    Untouched s.upstream s'.upstream gid :=
  ((h.unmoved g).resolve_left hp).2 gid (syncReadAuthorized_eq_some.mp hg).1

theorem groupView_of_untouched {db db' : Db} {gid : Nat} (h : Untouched db db' gid) :
    groupView db' own gid = groupView db own gid :=
  groupView_congr h.acl (fun _ _ => h.wraps _ rfl) (fun n => (secretCurrent_of_slot (h.secrets n)).1)
    fun n => (secretCurrent_of_slot (h.secrets n)).2

/-- 範囲の外で、mirror にも無い group は揃っている。 -/
theorem Matched.absent {up mirror : Db} (hg : groupId mirror g = none)
    (hauth : syncReadAuthorized up own g = none) : Matched up mirror own g := by
  refine ⟨?_, fun gid hgid => absurd (hgid.symm.trans hg) (Option.some_ne_none gid)⟩
  rw [hauth, viewOf, hg]
  rfl

theorem Matched.same {up mirror mirror' : Db} (h : Matched up mirror own g)
    (hs : SameRows mirror mirror') : Matched up mirror' own g := by
  obtain ⟨log, rfl⟩ := hs
  exact ⟨h.view, h.clean⟩

/-- 環境の歩みの下で、事実は残る。 -/
theorem Standing.onward (h : Onward own s s') {f : Fact} (hf : Standing own wrote s f) :
    Standing own wrote s' f := by
  cases f with
  | named g => exact h.scope hf
  | manifest names => exact h.manifest hf
  | state x =>
    obtain ⟨hs, hx, hag⟩ := hf
    refine ⟨h.scope hs, h.carry_scope hs hx ?_, fun g gid hg => ?_⟩
    · rintro hpend ⟨gid, hauth, hsnap⟩
      refine ⟨gid, (h.authorized hpend).trans hauth, ?_⟩
      rw [snapshotGroup_of_untouched (h.untouched hpend hauth)]
      exact hsnap
    · by_cases hpend : Pend s' g
      · exact Or.inl hpend
      · have hauth : syncReadAuthorized s.upstream own g = some gid := h.authorized hpend ▸ hg
        refine h.carry (hag g gid hauth) (fun _ hnone => ?_) fun _ hag e he => ?_
        · rw [hg] at hnone
          cases hnone
        · exact hag e (((h.untouched hpend hauth).acl e).mp he)
  | gone g =>
    exact h.carry hf (fun _ hnone => hnone) fun hpend hnone => (h.authorized hpend).trans hnone
  | granted g gid =>
    obtain ⟨hs, hg, hauth⟩ := hf
    exact ⟨h.scope hs, h.groups hg, h.carry_scope hs hauth fun hpend ha => (h.authorized hpend).trans ha⟩
  | fetched g f =>
    obtain ⟨hs, hw, hrow⟩ := hf
    refine ⟨h.scope hs, hw, h.carry_scope hs hrow ?_⟩
    rintro hpend ⟨gid, hauth, hrow⟩
    refine ⟨gid, (h.authorized hpend).trans hauth, ?_⟩
    exact (Prod.mk.inj ((h.untouched hpend hauth).secrets f.name)).2.trans hrow
  | missing g n =>
    obtain ⟨hs, hrow⟩ := hf
    refine ⟨h.scope hs, h.carry_scope hs hrow ?_⟩
    rintro hpend ⟨gid, hauth, hrow⟩
    refine ⟨gid, (h.authorized hpend).trans hauth, ?_⟩
    exact (Prod.mk.inj ((h.untouched hpend hauth).secrets n)).2.trans hrow
  | done g =>
    obtain ⟨hmatch, hs⟩ := hf
    have habs : ∀ {g}, groupId s.mirror g = none → groupId s'.mirror g = none := by
      obtain ⟨log, hlog⟩ := h.mirror
      rw [hlog]
      exact id
    refine ⟨h.carry hmatch (fun hout hnone => ?_) fun hpend hm => ?_, hs.imp h.scope habs⟩
    · exact .absent (habs (hs.resolve_left hout)) hnone
    · have hm := hm.same h.mirror
      refine ⟨?_, hm.clean⟩
      rw [hm.view, h.authorized hpend]
      cases hauth : syncReadAuthorized s.upstream own g with
      | none => rfl
      | some gid =>
        exact congrArg some (groupView_of_untouched (h.untouched hpend hauth)).symm

/-- 二つの `wire` には同じ知らせが並ぶ。 -/
structure SameNotices (wire wire' : List SyncMessage) : Prop where
  changed : ∀ g, .changed g ∈ wire ↔ .changed g ∈ wire'
  scopeChanged : .scopeChanged ∈ wire ↔ .scopeChanged ∈ wire'

theorem SameNotices.refl (wire : List SyncMessage) : SameNotices wire wire :=
  ⟨fun _ => Iff.rfl, Iff.rfl⟩

/-- manifest の message は知らせではない。 -/
theorem sameNotices_cons {message : SyncMessage} {wire : List SyncMessage}
    (hc : ∀ g, message ≠ .changed g) (hs : message ≠ .scopeChanged) :
    SameNotices (message :: wire) wire := by
  refine ⟨fun g => ?_, ?_⟩
  · exact List.mem_cons.trans (or_iff_right fun he => hc g he.symm)
  · exact List.mem_cons.trans (or_iff_right fun he => hs he.symm)

section Quiet

variable {l l' : Link Db} {phase phase' : Phase Db} {stream : Option Stream}
  {wire wire' : List SyncMessage}

theorem queued_notices (hw : SameNotices wire wire') {g : String} :
    Queued ⟨⟨l, phase⟩, stream, wire⟩ g ↔ Queued ⟨⟨l', phase'⟩, stream, wire'⟩ g :=
  or_congr_left hw.scopeChanged

theorem pend_notices (hw : SameNotices wire wire') {g : String} :
    Pend ⟨⟨l, phase⟩, stream, wire⟩ g ↔ Pend ⟨⟨l', phase'⟩, stream, wire'⟩ g :=
  or_congr (hw.changed g) (queued_notices hw)

theorem manifested_notices (hw : SameNotices wire wire') {names : List String} :
    Manifested ⟨⟨l, phase⟩, stream, wire⟩ names ↔ Manifested ⟨⟨l', phase'⟩, stream, wire'⟩ names :=
  or_congr_left hw.scopeChanged

theorem inScope_notices (hw : SameNotices wire wire') {g : String} :
    InScope ⟨⟨l, phase⟩, stream, wire⟩ g ↔ InScope ⟨⟨l', phase'⟩, stream, wire'⟩ g :=
  exists_congr fun _ => and_congr (manifested_notices hw) (or_congr_left hw.scopeChanged)

/-- audit、event と session の居場所だけの動き。知らせでない message は読んでよい。 -/
theorem onward_quiet (hl : l.Same l') (hw : SameNotices wire wire') :
    Onward own ⟨⟨l, phase⟩, stream, wire⟩ ⟨⟨l', phase'⟩, stream, wire'⟩ := by
  obtain ⟨log, hlog⟩ := hl.upstream
  have hup : (System.mk ⟨l', phase'⟩ stream wire').upstream = l.upstream.withAudit log := hlog
  refine ⟨hl.mirror, fun hg => ?_, (inScope_notices hw).mp, (manifested_notices hw).mp,
    fun hp => Or.inl ((pend_notices hw).mp hp), fun g => Or.inr ?_⟩
  · rw [hup]
    exact hg
  · rw [hup]
    exact Unmoved.audit ⟨rfl, fun gid _ => .refl _ gid⟩ log

theorem Tended.quiet (h : Tended prim inner own wrote ⟨⟨l, phase⟩, stream, wire⟩)
    (hl : l.Same l') (hw : SameNotices wire wire') :
    Tended prim inner own wrote ⟨⟨l', phase'⟩, stream, wire'⟩ := by
  obtain ⟨log, hlog⟩ := hl.upstream
  have hup : (System.mk ⟨l', phase'⟩ stream wire').upstream = l.upstream.withAudit log := hlog
  refine ⟨?_, fun hr => h.rows ((congrArg Prod.snd (hl.mirror.slotOf _ _)).symm.trans hr), h.hosting,
    ?_, ?_, fun g hg => (inScope_notices hw).mp (h.pushes g ((hw.changed g).mpr hg))⟩
  · rw [hup]
    exact h.attested.audit log
  · rw [hup]
    exact h.todo
  · rw [hup]
    exact fun st cached hst hscope g =>
      (h.scope st cached hst hscope g).imp (queued_notices hw).mp id

end Quiet

/-! ## 同期の規則 -/

/-- mirror だけを書き換えた系。 -/
def System.withMirror (s : System) (db : Db) : System :=
  { s with session := { s.session with link := { s.session.link with mirror := db } } }

theorem Tended.servable (h : Tended prim inner own wrote s) : Servable prim s.upstream :=
  ⟨h.attested.toConsistent, fun hrow => h.attested.registered hrow⟩

theorem Tended.withMirror {db : Db} (h : Tended prim inner own wrote s)
    (hrows : ∀ {g n r}, (slotOf db g n).2 = some r → ∃ value, wrote g n r value) :
    Tended prim inner own wrote (s.withMirror db) :=
  ⟨h.attested, hrows, h.hosting, h.todo, h.scope, h.pushes⟩

/-- 手元の行も上流の行も書かれたものなので、取り違えられない。 -/
theorem Tended.faithful (h : Tended prim inner own wrote s)
    (hnonce : ∀ g n r v r' v', wrote g n r v → wrote g n r' v' → SameCipher r r') (g : String) :
    Faithful s.upstream s.mirror g := by
  intro n r r' hr hr'
  obtain ⟨v, hv⟩ := h.rows hr
  obtain ⟨gid, v', -, -, hv'⟩ := h.attested.rows hr'
  exact hnonce g n r v r' v' hv hv'

/-- mirror の動きの後にも残る事実。揃っている group のことは別に示す。 -/
theorem Standing.survives {db : Db} {touched : Option String} {f : Fact} (hf : f.Survives touched)
    (hdone : ∀ g, touched ≠ some g → Standing own wrote s (.done g) →
      Standing own wrote (s.withMirror db) (.done g)) (h : Standing own wrote s f) :
    Standing own wrote (s.withMirror db) f := by
  cases f with
  | done g => exact hdone g hf h
  | named _ => exact h
  | manifest _ => exact h
  | state _ => exact h
  | _ => exact hf.elim

/-- 知らせの残っていない group を写せば、揃う。 -/
theorem matched_applied {x : GroupSyncState} {rows : List FetchedSecret} {gm : Nat} {db : Db}
    (ht : Tended prim inner own wrote s)
    (hnonce : ∀ g n r v r' v', wrote g n r v → wrote g n r' v' → SameCipher r r')
    (hx : Standing own wrote s (.state x)) (hpend : ¬ Pend s x.name)
    (hfetched : ∀ f ∈ rows, Standing own wrote s (.fetched x.name f))
    (hmissing : ∀ n ∈ secretsNeedingFetch s.mirror x, (∀ f ∈ rows, f.name ≠ n) →
      Standing own wrote s (.missing x.name n))
    (hasked : ∀ f ∈ rows, f.name ∈ secretsNeedingFetch s.mirror x)
    (ha : Applied own x (decryptable x rows) gm s.mirror db) : Matched s.upstream db own x.name := by
  obtain ⟨gid, hauth, hsnap⟩ := hx.2.1.resolve_left hpend
  have hfresh : Fresh s.upstream s.mirror gid (snapshotGroup s.upstream gid x.name own) rows := by
    rw [← hsnap]
    refine ⟨fun f hf => ?_, fun n hn hno => ?_, hasked⟩
    · obtain ⟨gid', hauth', hrow⟩ := (hfetched f hf).2.2.resolve_left hpend
      rw [hauth] at hauth'
      cases hauth'
      exact hrow
    · obtain ⟨gid', hauth', hrow⟩ := (hmissing n hn hno).2.resolve_left hpend
      rw [hauth] at hauth'
      cases hauth'
      exact hrow
  refine ⟨?_, ha.clean⟩
  rw [hauth]
  have hsnapped : Applied own (snapshotGroup s.upstream gid x.name own)
      (decryptable (snapshotGroup s.upstream gid x.name own) rows) gm s.mirror db := by
    rw [← hsnap]
    exact ha
  exact viewOf_applied ht.servable hauth hfresh (ht.faithful hnonce x.name) hsnapped

/-- 写した group の ACL と食い違わない group は、揃ったままである。 -/
theorem done_applied_other {x : GroupSyncState} {rows : List FetchedSecret} {gm : Nat} {db : Db}
    (hx : Standing own wrote s (.state x)) (ha : Applied own x rows gm s.mirror db)
    (hne : g ≠ x.name) (h : Standing own wrote s (.done g)) :
    Standing own wrote (s.withMirror db) (.done g) := by
  refine ⟨?_, h.2.imp id fun hg => (ha.others g hne).trans hg⟩
  by_cases hpend : Pend s g
  · exact Or.inl hpend
  · have hm := h.1.resolve_left hpend
    have hag : ∀ v, viewOf s.mirror own g = some v → ∀ e ∈ v.acl,
        Agrees (effectiveAcl x.acl) e.1 e.2.1 := by
      intro v hv
      rw [hm.view] at hv
      obtain ⟨gid, hauth, rfl⟩ := Option.map_eq_some_iff.mp hv
      exact (hx.2.2 g gid hauth).resolve_left hpend
    exact Or.inr ⟨(ha.viewOf_other hne hag).trans hm.view, ha.clean_other hne hag hm.clean⟩

/-- 範囲に無い group は、落としてよい。 -/
theorem Tended.gone (h : Tended prim inner own wrote s) {names : List String}
    (hm : Manifested s names) (hg : g ∉ names) :
    Pend s g ∨ syncReadAuthorized s.upstream own g = none := by
  rcases hm with hsc | ⟨st, hst, hscope⟩
  · exact Or.inl (pend_of_scopeChanged hsc g)
  · rcases h.scope st names hst hscope g with hq | hiff
    · exact Or.inl (Or.inr hq)
    · exact Or.inr (not_not.mp fun hne => hg (hiff.mpr hne))

/-- 知らせを失わない同期の規則。 -/
def tending (prim : Primitives) (inner : Inner) (own : String) {wrote : Writing}
    (hnonce : ∀ g n r v r' v', wrote g n r v → wrote g n r' v' → SameCipher r r') :
    Discipline own System where
  view := fun s => s.session.link
  put := fun s l => { s with session := { s.session with link := l } }
  put_view := fun _ => rfl
  inv := Tended prim inner own wrote
  rely := fun s s' => SameRows s.mirror s'.mirror ∧
    ∀ f, Standing own wrote s f → Standing own wrote s' f
  refl := fun s => ⟨.refl _, fun _ => id⟩
  trans := fun h h' => ⟨h.1.trans h'.1, fun f hf => h'.2 f (h.2 f hf)⟩
  mayFail := False
  holds := fun f s => Standing own wrote s f
  stable := fun hr h => hr.2 _ h
  mirror_stable := fun hr => hr.1
  quiet := by
    rintro ⟨⟨l₀, phase⟩, stream, wire⟩ l hi hl
    exact ⟨⟨hl.mirror, fun f hf => hf.onward (onward_quiet hl (.refl _))⟩, hi.quiet hl (.refl _)⟩
  named_of_state := fun _ h => h.1
  read_group := by
    intro g s hi hg
    cases hauth : syncReadAuthorized s.session.link.upstream own g with
    | none => exact Or.inr hauth
    | some gid => exact ⟨hg, Or.inr ⟨gid, hauth, rfl⟩, fun _ _ _ => Or.inr fun e he => agrees_snapshot he⟩
  authorize := by
    intro x s hi hx
    cases hauth : syncReadAuthorized s.session.link.upstream own x.name with
    | none => exact Or.inr hauth
    | some gid => exact ⟨hx.1, (syncReadAuthorized_eq_some.mp hauth).1, Or.inr hauth⟩
  read_row := by
    rintro g gid s name hi ⟨hs, hg, hauth⟩
    cases hrow : secretDataCurrent s.session.link.upstream gid name with
    | none => exact ⟨hs, hauth.imp id fun hauth => ⟨gid, hauth, hrow⟩⟩
    | some row =>
      obtain ⟨-, value, -, -, hw⟩ := hi.attested.rows (slotOf_snd.mpr ⟨gid, hg, hrow⟩)
      exact ⟨hs, ⟨value, hw⟩, hauth.imp id fun hauth => ⟨gid, hauth, hrow⟩⟩
  apply := by
    rintro x s rows gm db db' hi hx hfetched hmissing hasked ha hlog
    have htended : Tended prim inner own wrote (s.withMirror db) := by
      refine hi.withMirror fun {g n r} hr => ?_
      rcases ha.slotOf_cases g n with hold | hnone | ⟨rfl, f, hf, rfl, hnew⟩
      · exact hi.rows (hold ▸ hr)
      · rw [hnone] at hr
        cases hr
      · rw [hnew] at hr
        cases hr
        exact (hfetched f (List.mem_filter.mp hf).1).2.1
    have hdone : Standing own wrote (s.withMirror db) (.done x.name) := by
      refine ⟨?_, Or.inl hx.1⟩
      by_cases hpend : Pend s x.name
      · exact Or.inl hpend
      · have hm : Matched s.upstream db own x.name :=
          matched_applied hi hnonce hx hpend hfetched hmissing hasked ha
        exact Or.inr hm
    have hkeep : ∀ f : Fact, f.Survives (some x.name) → Standing own wrote s f →
        Standing own wrote (s.withMirror db) f := fun f hf =>
      Standing.survives hf fun g hne => done_applied_other hx ha fun he => hne (congrArg some he.symm)
    -- audit の行を足しても変わらない
    have hq : Onward own (s.withMirror db) (s.withMirror db') := onward_quiet ⟨.refl _, hlog⟩ (.refl _)
    exact ⟨htended.quiet ⟨.refl _, hlog⟩ (.refl _), hdone.onward hq, fun f hf h => (hkeep f hf h).onward hq⟩
  drop := by
    intro g s hi hgone
    have hd := dropGroupLocal_spec s.session.link.mirror g
    have habs : groupId (dropGroupLocal s.session.link.mirror g).2 g = none :=
      (hd.groups g).trans (if_pos rfl)
    refine ⟨hi.withMirror fun {g' n r} hr => ?_, ⟨hgone.imp id fun hauth => .absent habs hauth,
      Or.inr habs⟩, fun f hf => Standing.survives hf fun g' hne h => ?_⟩
    · rw [hd.slotOf] at hr
      split at hr
      · cases hr
      · exact hi.rows hr
    · have hne : g' ≠ g := fun he => hne (congrArg some he.symm)
      refine ⟨h.1.imp id fun hm => ⟨((hd.viewOf g').trans (if_neg hne)).trans hm.view,
        hd.clean hm.clean⟩, h.2.imp id fun hg => ?_⟩
      exact ((hd.groups g').trans (if_neg hne)).trans hg
  gc := by
    intro s hi
    refine ⟨hi.withMirror hi.rows, fun f hf => Standing.survives hf fun g _ h => ⟨?_, h.2⟩⟩
    exact h.1.imp id fun hm =>
      ⟨(gc_viewOf s.session.link.mirror own g).trans hm.view, gc_clean hm.clean⟩
  stale := fun hi hm hg => hi.gone hm hg
  absent := fun hi hm hg habs =>
    ⟨(hi.gone hm hg).imp id fun hauth => .absent habs hauth, Or.inr habs⟩

/-! ## stream の一歩 -/

variable {db db' : Db} {st st' : Stream} {sent : List SyncMessage}

/-- 範囲が替わるなら、それが知らされる。 -/
theorem System.Served.keepsScope (h : Served own db st st' sent db') :
    taskScope st.task = none ∨ taskScope st'.task = taskScope st.task ∨
      .scopeChanged ∈ sent := by
  cases h with
  | subscribed => exact Or.inl rfl
  | denied _ => exact Or.inl rfl
  | admitted _ => exact Or.inl rfl
  | snapshot => exact Or.inr (Or.inl rfl)
  | listed => exact Or.inr (Or.inl rfl)
  | gathered ht _ => rcases ht with ⟨rfl, -⟩ | rfl <;> exact Or.inr (Or.inl rfl)
  | closed =>
    unfold closeBatch
    split
    · exact Or.inr (Or.inr List.mem_cons_self)
    · exact Or.inr (Or.inl rfl)

/-- 送っていない知らせは、まだ送っていないか、送られたか、範囲の外のものである。 -/
theorem System.Served.unsent (h : Served own db st st' sent db') (hg : Unsent st g) :
    Unsent st' g ∨ .changed g ∈ sent ∨ .scopeChanged ∈ sent ∨
      ∃ cached, taskScope st.task = some cached ∧ g ∉ cached ∧
        syncReadAuthorized db own g = none := by
  obtain ⟨hscope, hg⟩ := hg
  cases h with
  | subscribed => exact absurd rfl hscope
  | denied _ => exact absurd rfl hscope
  | admitted _ => exact absurd rfl hscope
  | snapshot =>
    rcases hg with hg | ⟨_, _, _, ht, -⟩
    · exact Or.inl ⟨hscope, Or.inl hg⟩
    · cases ht
  | listed =>
    rcases hg with hg | ⟨_, _, _, ht, -⟩
    · exact Or.inl ⟨Option.some_ne_none _, Or.inl hg⟩
    · cases ht
  | @gathered task cached batch lagged e e' got ht hrecv =>
    refine Or.inl ⟨Option.some_ne_none _, ?_⟩
    have hbatch : e.Holds g ∨ lagged = true ∨ g ∈ batch := by
      rcases hg with hg | ⟨cached', lagged', batch', htask, hg⟩
      · exact Or.inl hg
      · rcases ht with ⟨rfl, -⟩ | rfl
        · cases htask
        · cases htask
          exact Or.inr hg
    rcases hbatch with hg | hl | hb
    · rcases hg.recv hrecv with rfl | rfl | hg
      · exact Or.inr ⟨_, _, _, rfl, Or.inl rfl⟩
      · exact Or.inr ⟨_, _, _, rfl, Or.inr List.mem_insert_self⟩
      · exact Or.inl hg
    · refine Or.inr ⟨_, _, _, rfl, Or.inl ?_⟩
      cases got with
      | none => rfl
      | some x => exact hl
    · refine Or.inr ⟨_, _, _, rfl, Or.inr ?_⟩
      cases got with
      | none => exact hb
      | some x => exact List.mem_insert_of_mem hb
  | @closed cached batch lagged e =>
    rcases hg with hg | ⟨cached', lagged', batch', htask, hg⟩
    · exact Or.inl ⟨Option.some_ne_none _, Or.inl hg⟩
    · cases htask
      refine Or.inr ?_
      unfold closeBatch
      split
      · exact Or.inr (Or.inl List.mem_cons_self)
      · next hsame =>
        obtain ⟨hl, hsame⟩ := not_or.mp hsame
        have hsame := not_not.mp hsame
        have hb := hg.resolve_left hl
        by_cases hc : g ∈ cached
        · exact Or.inl (List.mem_map_of_mem (List.mem_filter.mpr ⟨hc, by simpa using hb⟩))
        · refine Or.inr (Or.inr ⟨cached, rfl, hc, not_not.mp fun hne => hc ?_⟩)
          rw [← hsame]
          exact mem_currentScopeNames.mpr hne

section Stream

variable {l : Link Db} {phase : Phase Db} {wire : List SyncMessage}

theorem manifested_served (h : Served own l.upstream st st' sent db) {names : List String}
    (hm : Manifested ⟨⟨l, phase⟩, some st, wire⟩ names) :
    Manifested ⟨⟨{ l with upstream := db }, phase⟩, some st', wire ++ sent⟩ names := by
  rcases hm with hsc | ⟨u, hu, hscope⟩
  · exact Or.inl (List.mem_append_left _ hsc)
  · cases hu
    rcases h.keepsScope with hnone | hsame | hsc
    · rw [hscope] at hnone
      cases hnone
    · exact Or.inr ⟨st', rfl, hsame.trans hscope⟩
    · exact Or.inl (List.mem_append_right _ hsc)

theorem inScope_served (h : Served own l.upstream st st' sent db) {g : String}
    (hs : InScope ⟨⟨l, phase⟩, some st, wire⟩ g) :
    InScope ⟨⟨{ l with upstream := db }, phase⟩, some st', wire ++ sent⟩ g := by
  obtain ⟨names, hm, hg⟩ := hs
  exact ⟨names, manifested_served h hm, hg.imp (List.mem_append_left _) id⟩

theorem queued_served (h : Served own l.upstream st st' sent db) {g : String}
    (hq : Queued ⟨⟨l, phase⟩, some st, wire⟩ g) :
    Pend ⟨⟨{ l with upstream := db }, phase⟩, some st', wire ++ sent⟩ g ∨
      .scopeChanged ∉ wire ∧ ∃ cached, taskScope st.task = some cached ∧ g ∉ cached ∧
        syncReadAuthorized l.upstream own g = none := by
  by_cases hsc : .scopeChanged ∈ wire
  · exact Or.inl (pend_of_scopeChanged (List.mem_append_left _ hsc) g)
  · rcases hq with hsc' | ⟨u, hu, hun⟩
    · exact absurd hsc' hsc
    · cases hu
      rcases h.unsent hun with hun | hch | hsc' | hout
      · exact Or.inl (Or.inr (Or.inr ⟨st', rfl, hun⟩))
      · exact Or.inl (Or.inl (List.mem_append_right _ hch))
      · exact Or.inl (pend_of_scopeChanged (List.mem_append_right _ hsc') g)
      · exact Or.inr ⟨hsc, hout⟩

theorem onward_served (h : Served own l.upstream st st' sent db) :
    Onward own ⟨⟨l, phase⟩, some st, wire⟩
      ⟨⟨{ l with upstream := db }, phase⟩, some st', wire ++ sent⟩ := by
  have hsame := h.same
  obtain ⟨log, rfl⟩ := hsame
  refine ⟨.refl _, id, inScope_served h, manifested_served h, fun {g} hp => ?_, fun g =>
    Or.inr (Unmoved.audit ⟨rfl, fun gid _ => .refl _ gid⟩ log)⟩
  rcases hp with hch | hq
  · exact Or.inl (Or.inl (List.mem_append_left _ hch))
  · rcases queued_served h hq with hp | ⟨hsc, cached, hcached, hg, hauth⟩
    · exact Or.inl hp
    · refine Or.inr ⟨?_, hauth⟩
      rintro ⟨names, hm, hin⟩
      obtain ⟨u, hu, hnames⟩ := hm.resolve_left hsc
      cases hu
      rw [hcached] at hnames
      cases hnames
      exact hg (hin.resolve_left hsc)

/-- 覚えている範囲は、読んだとき今の範囲である。 -/
theorem scope_served (ht : Tended prim inner own wrote ⟨⟨l, phase⟩, some st, wire⟩)
    (h : Served own l.upstream st st' sent db) {cached : List String}
    (hscope : taskScope st'.task = some cached) (g : String) :
    Queued ⟨⟨{ l with upstream := db }, phase⟩, some st', wire ++ sent⟩ g ∨
      (g ∈ cached ↔ syncReadAuthorized l.upstream own g ≠ none) := by
  -- 範囲を替えない一歩では、知らせの行方を追えばよい
  have hold : taskScope st.task = some cached → (∀ x, .changed x ∉ sent) →
      Queued ⟨⟨{ l with upstream := db }, phase⟩, some st', wire ++ sent⟩ g ∨
        (g ∈ cached ↔ syncReadAuthorized l.upstream own g ≠ none) := by
    intro hcached hno
    rcases ht.scope st cached rfl hcached g with (hsc | ⟨u, hu, hun⟩) | hiff
    · exact Or.inl (Or.inl (List.mem_append_left _ hsc))
    · cases hu
      rcases h.unsent hun with hun | hch | hsc | ⟨cached', hcached', hg, hauth⟩
      · exact Or.inl (Or.inr ⟨st', rfl, hun⟩)
      · exact absurd hch (hno g)
      · exact Or.inl (Or.inl (List.mem_append_right _ hsc))
      · rw [hcached] at hcached'
        cases hcached'
        exact Or.inr (iff_of_false hg fun hne => hne hauth)
    · exact Or.inr hiff
  cases h with
  | subscribed => cases hscope
  | denied _ => cases hscope
  | @admitted _ scope _ hs =>
    cases hscope
    refine Or.inr ?_
    rw [← mem_currentScopeNames]
    unfold currentScopeNames
    rw [hs]
    rfl
  | snapshot =>
    refine hold hscope fun x hx => ?_
    unfold Sync.groupMessages at hx
    rcases List.mem_cons.mp hx with hx | hx
    · cases hx
    · obtain ⟨_, -, hx⟩ := List.mem_map.mp hx
      cases hx
  | listed => exact hold hscope fun x hx => nomatch List.mem_singleton.mp hx
  | gathered hb _ =>
    refine hold ?_ fun x => List.not_mem_nil
    rcases hb with ⟨rfl, -⟩ | rfl <;> exact hscope
  | closed =>
    unfold closeBatch at hscope ⊢
    split
    · exact Or.inl (Or.inl (List.mem_append_right _ List.mem_cons_self))
    · next hsame =>
      rw [if_neg hsame] at hscope
      cases hscope
      refine Or.inr ?_
      rw [← mem_currentScopeNames, not_not.mp (not_or.mp hsame).2]

/-- 知らせる group は、いつも scope にある。 -/
theorem pushes_served (ht : Tended prim inner own wrote ⟨⟨l, phase⟩, some st, wire⟩)
    (h : Served own l.upstream st st' sent db) {g : String} (hg : .changed g ∈ wire ++ sent) :
    InScope ⟨⟨{ l with upstream := db }, phase⟩, some st', wire ++ sent⟩ g := by
  rcases List.mem_append.mp hg with hg | hg
  · exact inScope_served h (ht.pushes g hg)
  · cases h with
    | snapshot =>
      unfold Sync.groupMessages at hg
      rcases List.mem_cons.mp hg with hg | hg
      · cases hg
      · obtain ⟨_, -, hg⟩ := List.mem_map.mp hg
        cases hg
    | closed =>
      unfold closeBatch at hg ⊢
      split at hg
      · cases List.mem_singleton.mp hg
      · next hsame =>
        obtain ⟨x, hx, he⟩ := List.mem_map.mp hg
        cases he
        rw [if_neg hsame]
        exact ⟨_, Or.inr ⟨_, rfl, rfl⟩, Or.inr (List.mem_filter.mp hx).1⟩
    | listed => cases List.mem_singleton.mp hg
    | denied _ => cases List.mem_singleton.mp hg
    | _ => cases hg

/-- 上流の stream の一歩。 -/
theorem Tended.served (ht : Tended prim inner own wrote ⟨⟨l, phase⟩, some st, wire⟩)
    (h : Served own l.upstream st st' sent db) :
    Tended prim inner own wrote
      ⟨⟨{ l with upstream := db }, phase⟩, some st', wire ++ sent⟩ := by
  refine ⟨h.same.attested ht.attested, ht.rows, ?_, ?_, ?_, fun g => pushes_served ht h⟩
  · intro u hu
    cases hu
    exact h.hosting
  · intro u cached todo hu htask
    cases hu
    have htodo := ht.todo st
    cases h with
    | @admitted _ scope _ hs =>
      cases htask
      exact fun x hx => (syncReadAuthorized_eq_some.mp ((mem_scopeOf hs).mp hx)).1
    | snapshot =>
      cases htask
      exact fun x hx => htodo _ _ rfl rfl x (List.mem_cons_of_mem _ hx)
    | _ => cases htask
  · intro u cached hu hscope g
    cases hu
    have hres := scope_served ht h hscope g
    have hsame := h.same
    obtain ⟨log, hlog⟩ := hsame
    change Queued ⟨⟨{ l with upstream := db }, phase⟩, some st', wire ++ sent⟩ g ∨
      (g ∈ cached ↔ syncReadAuthorized db own g ≠ none)
    rw [hlog] at hres ⊢
    exact hres

end Stream

/-! ## 要求 -/

section Request

variable {amb : Ambient} {remote g : String} {req : Request}

theorem Unsent.publish {groups : List String} (h : Unsent st g) : Unsent (st.publish groups) g :=
  ⟨h.1, h.2.imp (fun hg => Receiver.Holds.sendAll eventsCapacity (Or.inl hg)) id⟩

theorem unsent_of_published {groups : List String} (hs : taskScope st.task ≠ none)
    (hg : g ∈ groups) : Unsent (st.publish groups) g :=
  ⟨hs, Or.inl (Receiver.Holds.sendAll eventsCapacity (Or.inr hg))⟩

theorem manifested_handle {names : List String} (h : Manifested s names) :
    Manifested (s.handle prim inner amb remote req) names := by
  rcases h with hsc | ⟨st, hst, hscope⟩
  · exact Or.inl hsc
  · exact Or.inr ⟨_, congrArg (Option.map _) hst, hscope⟩

theorem inScope_handle (h : InScope s g) : InScope (s.handle prim inner amb remote req) g := by
  obtain ⟨names, hm, hg⟩ := h
  exact ⟨names, manifested_handle hm, hg⟩

theorem queued_handle (h : Queued s g) : Queued (s.handle prim inner amb remote req) g := by
  rcases h with hsc | ⟨st, hst, hun⟩
  · exact Or.inl hsc
  · exact Or.inr ⟨_, congrArg (Option.map _) hst, hun.publish⟩

/-- 要求の変えた group は、範囲を読んだ stream に知らされる。 -/
theorem published_handle (ht : Tended prim inner own wrote s) (hst : s.stream = some st)
    (hscope : taskScope st.task ≠ none) (g : String) :
    Queued (s.handle prim inner amb remote req) g ∨
      Unmoved s.upstream (s.handle prim inner amb remote req).upstream g := by
  by_cases hg : g ∈ (Bunker.handle prim inner amb s.upstream remote req).published
  · exact Or.inl (Or.inr ⟨_, congrArg (Option.map _) hst, unsent_of_published hscope hg⟩)
  · exact Or.inr (unmoved_handle ht.attested.secrets remote req hg)

theorem onward_handle (laws : prim.Lawful) (ht : Tended prim inner own wrote s)
    (hst : s.stream = some st) (hscope : taskScope st.task ≠ none) :
    Onward own s (s.handle prim inner amb remote req) := by
  refine ⟨.refl _, fun hg => (ht.attested.stable_handle laws amb remote req).groupId hg,
    inScope_handle, manifested_handle, fun hp => Or.inl (hp.imp id queued_handle), fun g => ?_⟩
  exact (published_handle ht hst hscope g).imp Or.inr id

/-- 要求の一歩。 -/
theorem Tended.handle (laws : prim.Lawful) (ht : Tended prim inner own wrote s)
    (hw : ∀ g n value e row, req = .put g n value e →
      (Bunker.handle prim inner amb s.upstream remote req).response = .version (e.toNat + 1) →
      (slotOf (Bunker.handle prim inner amb s.upstream remote req).db g n).2 = some row →
      row.nonce = amb.nonce.bytes → wrote g n row value) :
    Tended prim inner own wrote (s.handle prim inner amb remote req) := by
  have hstable := ht.attested.stable_handle laws amb remote req
  refine ⟨ht.attested.handle laws remote req hw, ht.rows, ?_, ?_, ?_, fun g hg =>
    inScope_handle (ht.pushes g hg)⟩
  · intro u hu
    obtain ⟨st, hst, rfl⟩ := Option.map_eq_some_iff.mp hu
    exact (ht.hosting st hst).publish _
  · intro u cached todo hu htask x hx
    obtain ⟨st, hst, rfl⟩ := Option.map_eq_some_iff.mp hu
    exact hstable.groupId (ht.todo st cached todo hst htask x hx)
  · intro u cached hu hscope g
    obtain ⟨st, hst, rfl⟩ := Option.map_eq_some_iff.mp hu
    have hne : taskScope st.task ≠ none := fun hnone => by
      change taskScope st.task = some cached at hscope
      rw [hnone] at hscope
      cases hscope
    rcases published_handle ht hst hne g with hq | hun
    · exact Or.inl hq
    · rcases ht.scope st cached hst hscope g with hq | hiff
      · exact Or.inl (queued_handle hq)
      · rw [syncReadAuthorized_of_unmoved hun]
        exact Or.inr hiff

end Request

/-! ## 居場所ごとの見通し -/

/-- manifest を送り終えた stream に繋がっている。 -/
def Attached (s : System) : Prop := ∃ st cached, s.stream = some st ∧ Following cached st.task

theorem System.Following.scope {task : Task} (h : Following cached task) :
    taskScope task = some cached := by
  rcases h with rfl | ⟨_, _, rfl⟩ <;> rfl

/-- stream は manifest を送り終えてから、知らせるだけになる。 -/
theorem following_served (h : Served own db st st' sent db') (hf : Following cached st'.task) :
    (∃ cached', Following cached' st.task) ∨
      st.task = .manifest cached [] ∧ st'.task = .live cached := by
  cases h with
  | listed =>
    rcases hf with hf | ⟨_, _, hf⟩
    · cases hf
      exact Or.inr ⟨rfl, rfl⟩
    · cases hf
  | gathered ht _ =>
    rcases ht with ⟨rfl, -⟩ | rfl
    · exact Or.inl ⟨_, Or.inl rfl⟩
    · exact Or.inl ⟨_, Or.inr ⟨_, _, rfl⟩⟩
  | closed => exact Or.inl ⟨_, Or.inr ⟨_, _, rfl⟩⟩
  | _ => rcases hf with hf | ⟨_, _, hf⟩ <;> cases hf

theorem served_following (h : Served own db st st' sent db') (hf : Following cached st.task) :
    ∃ cached', Following cached' st'.task := by
  cases h with
  | gathered _ _ => exact ⟨_, Or.inr ⟨_, _, rfl⟩⟩
  | closed => exact ⟨_, Or.inl rfl⟩
  | _ => rcases hf with hf | ⟨_, _, hf⟩ <;> cases hf

/-- 範囲を読む前の stream は、snapshot を一つも送っていない。 -/
theorem System.Underway.unread {stash snaps : List GroupSyncState} {wire : List SyncMessage}
    {task : Task} (h : Underway stash snaps wire task) (hs : taskScope task = none) : snaps = [] := by
  cases h with
  | opening _ _ hn => exact hn
  | denied hn => exact hn
  | listing _ _ _ => cases hs
  | listed _ _ ht =>
    rw [ht.scope] at hs
    cases hs

theorem System.Underway.done {stash snaps : List GroupSyncState} {wire : List SyncMessage}
    {task : Task} (h : Underway stash snaps (.manifestDone :: wire) task) :
    ∃ cached, Following cached task := by
  generalize hw : SyncMessage.manifestDone :: wire = w at h
  cases h with
  | opening _ _ _ => cases hw
  | denied _ => cases hw
  | listing hfold _ _ =>
    subst hw
    cases hfold
  | listed _ _ ht => exact ⟨_, ht⟩

/-- manifest を読んでいる間の見通し。 -/
def Greeting (own : String) (wrote : Writing) (s : System) (stash : List GroupSyncState) : Prop :=
  ∃ st snaps, s.stream = some st ∧ Underway stash snaps s.wire st.task ∧
    (∀ x ∈ snaps, Standing own wrote s (.state x)) ∧
    (Attached s → Standing own wrote s (.manifest (snaps.map (·.name))))

section Phase

variable (prim inner own) (hnonce : ∀ g n r v r' v', wrote g n r v → wrote g n r' v' → SameCipher r r')

/-- session の居場所ごとの見通し。手続きの外では、どの group も揃っているか知らせが残っている。 -/
def Poised (s : System) : Prop :=
  match s.session.phase with
  | .manifest _ stash => Greeting own wrote s stash
  | .working _ rest => Attached s ∧ (tending prim inner own hnonce).Safe
      (fun _ s => ∀ g, Standing own wrote s (.done g)) rest s
  | .live _ => Attached s ∧ ∀ g, Standing own wrote s (.done g)
  | _ => True

/-- 知らせの抜けていない系。 -/
structure Upkept (s : System) : Prop where
  tended : Tended prim inner own wrote s
  poised : Poised prim inner own hnonce s

variable {prim inner own hnonce}

theorem rely_of_onward (h : Onward own s s') :
    (tending prim inner own hnonce).rely s s' := ⟨h.mirror, fun _ hf => hf.onward h⟩

/-- 環境の歩みでは、居場所ごとの見通しも残る。 -/
theorem Poised.onward (h : Poised prim inner own hnonce s)
    (hphase : s'.session.phase = s.session.phase) (ho : Attached s → Onward own s s' ∧ Attached s')
    (hgreet : ∀ stash, Greeting own wrote s stash → Greeting own wrote s' stash) :
    Poised prim inner own hnonce s' := by
  unfold Poised at h ⊢
  rw [hphase]
  split at h
  · exact hgreet _ h
  · obtain ⟨hon, hatt⟩ := ho h.1
    exact ⟨hatt, Setting.Safe.stable h.2 (rely_of_onward hon)⟩
  · obtain ⟨hon, hatt⟩ := ho h.1
    exact ⟨hatt, fun g => (h.2 g).onward hon⟩
  · trivial

variable {l l' : Link Db} {phase : Phase Db} {wire : List SyncMessage}

/-- 送られたばかりの snapshot は、上流の今のものである。 -/
theorem standing_snapshot (ht : Tended prim inner own wrote ⟨⟨l, phase⟩, some st, wire⟩)
    {cached : List String} {gid : Nat} {name : String} {todo : List (Nat × String)}
    (htask : st.task = .manifest cached ((gid, name) :: todo)) (hname : name ∈ cached) :
    Standing own wrote ⟨⟨l, phase⟩, some st, wire⟩
      (.state (snapshotGroup l.upstream gid name own)) := by
  have hscope : taskScope st.task = some cached := by
    rw [htask]
    rfl
  refine ⟨⟨cached, Or.inr ⟨st, rfl, hscope⟩, Or.inr hname⟩, ?_,
    fun _ _ _ => Or.inr fun e he => agrees_snapshot he⟩
  rcases ht.scope st cached rfl hscope name with hq | hiff
  · exact Or.inl (Or.inr hq)
  · obtain ⟨gid', hauth⟩ := Option.ne_none_iff_exists'.mp (hiff.mp hname)
    have hsame : gid' = gid := Option.some.inj ((syncReadAuthorized_eq_some.mp hauth).1.symm.trans
      (ht.todo st cached _ rfl htask (gid, name) List.mem_cons_self))
    subst hsame
    exact Or.inr ⟨gid', hauth, rfl⟩

variable {stash : List GroupSyncState} {stream : Option Stream}

/-- manifest を送る一歩。 -/
theorem Greeting.served (ht : Tended prim inner own wrote ⟨⟨l, phase⟩, some st, wire⟩)
    (h : Served own l.upstream st st' sent db)
    (hg : Greeting own wrote ⟨⟨l, phase⟩, some st, wire⟩ stash) :
    Greeting own wrote ⟨⟨{ l with upstream := db }, phase⟩, some st', wire ++ sent⟩ stash := by
  obtain ⟨u, snaps, hu, hund, hstates, hlist⟩ := hg
  cases hu
  have ho : Onward own ⟨⟨l, phase⟩, some st, wire⟩
    ⟨⟨{ l with upstream := db }, phase⟩, some st', wire ++ sent⟩ := onward_served h
  obtain ⟨snaps', hund', hnew⟩ := hund.served h
  refine ⟨st', snaps', rfl, hund', ?_, ?_⟩
  · rcases hnew with rfl | ⟨cached, gid, name, todo, htask, rfl⟩
    · exact fun x hx => (hstates x hx).onward ho
    · intro x hx
      rcases List.mem_append.mp hx with hx | hx
      · exact (hstates x hx).onward ho
      · rw [List.mem_singleton.mp hx]
        refine (standing_snapshot ht htask ?_).onward ho
        rw [htask] at hund
        cases hund with
        | opening hc _ _ => rcases hc with hc | hc <;> cases hc
        | listing _ hn _ =>
          rw [← hn]
          exact List.mem_append_right _ List.mem_cons_self
        | listed _ _ hf => rcases hf with hf | ⟨_, _, hf⟩ <;> cases hf
  · rintro ⟨u, cached, hu, hf⟩
    cases hu
    rcases following_served h hf with ⟨cached', hf'⟩ | ⟨htask, htask'⟩
    · -- もう読み終えた manifest には、snapshot は増えない
      have hsame : snaps' = snaps := by
        refine hnew.resolve_right ?_
        rintro ⟨_, _, _, _, htask, -⟩
        rw [htask] at hf'
        rcases hf' with hf' | ⟨_, _, hf'⟩ <;> cases hf'
      rw [hsame]
      exact (hlist ⟨st, cached', rfl, hf'⟩).onward ho
    · have hsame : snaps' = snaps := by
        refine hnew.resolve_right ?_
        rintro ⟨_, _, _, _, hc, -⟩
        rw [htask] at hc
        cases hc
      rw [htask] at hund
      cases hund with
      | opening hc _ _ => rcases hc with hc | hc <;> cases hc
      | listing _ hn _ =>
        rw [List.map_nil, List.append_nil] at hn
        refine Or.inr ⟨st', rfl, ?_⟩
        rw [htask', hsame, hn]
        rfl
      | listed _ _ hf => rcases hf with hf | ⟨_, _, hf⟩ <;> cases hf

theorem Upkept.served (hu : Upkept prim inner own hnonce ⟨⟨l, phase⟩, some st, wire⟩)
    (h : Served own l.upstream st st' sent db) :
    Upkept prim inner own hnonce
      ⟨⟨{ l with upstream := db }, phase⟩, some st', wire ++ sent⟩ := by
  refine ⟨hu.tended.served h, hu.poised.onward rfl ?_ fun _ hg => hg.served hu.tended h⟩
  rintro ⟨u, cached, hst, hf⟩
  cases hst
  obtain ⟨cached', hf'⟩ := served_following h hf
  exact ⟨onward_served h, st', cached', rfl, hf'⟩

/-- 要求の一歩。 -/
theorem Upkept.handle (laws : prim.Lawful) {amb : Ambient} {remote : String} {req : Request}
    (hu : Upkept prim inner own hnonce s)
    (hw : ∀ g n value e row, req = .put g n value e →
      (Bunker.handle prim inner amb s.upstream remote req).response = .version (e.toNat + 1) →
      (slotOf (Bunker.handle prim inner amb s.upstream remote req).db g n).2 = some row →
      row.nonce = amb.nonce.bytes → wrote g n row value) :
    Upkept prim inner own hnonce (s.handle prim inner amb remote req) := by
  have hatt : ∀ {st}, s.stream = some st →
      (s.handle prim inner amb remote req).stream = some (st.publish
        (Bunker.handle prim inner amb s.upstream remote req).published) :=
    fun hst => congrArg (Option.map _) hst
  refine ⟨hu.tended.handle laws hw, hu.poised.onward rfl ?_ ?_⟩
  · rintro ⟨st, cached, hst, hf⟩
    have hne : taskScope st.task ≠ none := by
      rw [hf.scope]
      exact Option.some_ne_none cached
    exact ⟨onward_handle laws hu.tended hst hne, _, cached, hatt hst, hf⟩
  · rintro stash ⟨st, snaps, hst, hund, hstates, hlist⟩
    refine ⟨_, snaps, hatt hst, hund, ?_⟩
    by_cases hscope : taskScope st.task = none
    · -- 範囲を読む前なら、まだ何も受け取っていない
      rw [hund.unread hscope]
      refine ⟨fun x hx => absurd hx List.not_mem_nil, ?_⟩
      rintro ⟨st', cached, hst', hf⟩
      rw [hatt hst] at hst'
      cases hst'
      have hsome : taskScope st.task = some cached := hf.scope
      rw [hscope] at hsome
      cases hsome
    · have ho : Onward own s (s.handle prim inner amb remote req) :=
        onward_handle laws hu.tended hst hscope
      refine ⟨fun x hx => (hstates x hx).onward ho, ?_⟩
      rintro ⟨st', cached, hst', hf⟩
      rw [hatt hst] at hst'
      cases hst'
      exact (hlist ⟨st, cached, hst, hf⟩).onward ho

/-- 手元の知らせだけの動きでは、見通しも残る。 -/
theorem Greeting.quiet {phase' : Phase Db} {wire' : List SyncMessage}
    {stash' : List GroupSyncState} (h : Greeting own wrote ⟨⟨l, phase⟩, stream, wire⟩ stash)
    (hl : l.Same l') (hw : SameNotices wire wire')
    (hund : ∀ snaps task, Underway stash snaps wire task → Underway stash' snaps wire' task) :
    Greeting own wrote ⟨⟨l', phase'⟩, stream, wire'⟩ stash' := by
  have ho : Onward own ⟨⟨l, phase⟩, stream, wire⟩ ⟨⟨l', phase'⟩, stream, wire'⟩ := onward_quiet hl hw
  obtain ⟨st, snaps, hst, hu, hstates, hlist⟩ := h
  exact ⟨st, snaps, hst, hund _ _ hu, fun x hx => (hstates x hx).onward ho,
    fun hatt => (hlist hatt).onward ho⟩

/-- `Changed` を読むと、その group のほかは揃ったままである。 -/
theorem Standing.pushed {phase' : Phase Db} {g group : String}
    (h : Standing own wrote ⟨⟨l, phase⟩, stream, .changed group :: wire⟩ (.done g))
    (hne : g ≠ group) : Standing own wrote ⟨⟨l, phase'⟩, stream, wire⟩ (.done g) := by
  have hsc : (.scopeChanged ∈ SyncMessage.changed group :: wire) ↔ .scopeChanged ∈ wire :=
    List.mem_cons.trans (or_iff_right fun he => nomatch he)
  refine ⟨h.1.imp (fun hp => ?_) id, h.2.imp ?_ id⟩
  · rcases hp with hc | hq
    · exact Or.inl ((List.mem_cons.mp hc).resolve_left fun he => hne (SyncMessage.changed.inj he))
    · exact Or.inr (hq.imp hsc.mp id)
  · rintro ⟨names, hm, hg⟩
    exact ⟨names, hm.imp hsc.mp id, hg.imp hsc.mp id⟩

theorem Tended.pushed {phase' : Phase Db} {group : String}
    (h : Tended prim inner own wrote ⟨⟨l, phase⟩, stream, .changed group :: wire⟩) :
    Tended prim inner own wrote ⟨⟨l, phase'⟩, stream, wire⟩ ∧
      InScope ⟨⟨l, phase'⟩, stream, wire⟩ group := by
  have hsc : (.scopeChanged ∈ SyncMessage.changed group :: wire) ↔ .scopeChanged ∈ wire :=
    List.mem_cons.trans (or_iff_right fun he => nomatch he)
  have hin : ∀ {g}, InScope ⟨⟨l, phase⟩, stream, .changed group :: wire⟩ g →
      InScope ⟨⟨l, phase'⟩, stream, wire⟩ g := by
    rintro g ⟨names, hm, hg⟩
    exact ⟨names, hm.imp hsc.mp id, hg.imp hsc.mp id⟩
  refine ⟨⟨h.attested, h.rows, h.hosting, h.todo, fun st cached hst hscope g => ?_,
    fun g hg => hin (h.pushes g (List.mem_cons_of_mem _ hg))⟩, hin (h.pushes group List.mem_cons_self)⟩
  exact (h.scope st cached hst hscope g).imp (fun hq => hq.imp hsc.mp id) id

theorem merge_notice {stash' : List GroupSyncState} {message : SyncMessage}
    (h : Sync.merge stash message = some stash') :
    (∀ g, message ≠ .changed g) ∧ message ≠ .scopeChanged := by
  refine ⟨?_, ?_⟩
  · rintro g rfl
    cases h
  · rintro rfl
    cases h

/-- 開き直した stream には、まだ約束するものが無い。 -/
theorem Upkept.hello (h : Upkept prim inner own hnonce ⟨⟨l, phase⟩, stream, wire⟩) :
    Upkept prim inner own hnonce (System.hello own ⟨l, .manifest false []⟩) := by
  refine ⟨⟨h.tended.attested, h.tended.rows, fun st hst => ?_, fun st _ _ hst htask => ?_,
    fun st _ hst hscope => ?_, fun _ hg => absurd hg List.not_mem_nil⟩,
    _, [], rfl, .hello, fun _ hs => absurd hs List.not_mem_nil, ?_⟩
  · cases hst
    exact hosting_accept
  · cases hst
    cases htask
  · cases hst
    cases hscope
  · rintro ⟨st, cached, hst, hf⟩
    cases hst
    rcases hf with hf | ⟨_, _, hf⟩ <;> cases hf

/-- manifest を受け取り終えると、そろえるべき group の見通しは揃っている。 -/
theorem Upkept.listed {ok : Bool} (hl : l' = l ∨ l' = setConnected l)
    (h : Upkept prim inner own hnonce ⟨⟨l, .manifest ok stash⟩, stream, .manifestDone :: wire⟩) :
    Upkept prim inner own hnonce
      ⟨Replica.start (node prim own) prim own l' (.resync stash), stream, wire⟩ := by
  have hnotice : SameNotices (.manifestDone :: wire) wire :=
    sameNotices_cons (fun _ he => nomatch he) fun he => nomatch he
  have hsame := (connected_same hl).1
  have ht : Tended prim inner own wrote
      ⟨Replica.start (node prim own) prim own l' (.resync stash), stream, wire⟩ :=
    h.tended.quiet hsame hnotice
  have ho : Onward own ⟨⟨l, .manifest ok stash⟩, stream, .manifestDone :: wire⟩
      ⟨Replica.start (node prim own) prim own l' (.resync stash), stream, wire⟩ :=
    onward_quiet hsame hnotice
  obtain ⟨st, snaps, hst, hu, hstates, hlist⟩ := h.poised
  obtain ⟨rfl, hnd⟩ := hu.complete
  obtain ⟨cached, hf⟩ := hu.done
  exact ⟨ht, ⟨st, cached, hst, hf⟩,
    Discipline.safe_fullResync (D := tending prim inner own hnonce) hnd ht
      ((hlist ⟨st, cached, hst, hf⟩).onward ho) fun x hx => (hstates x hx).onward ho⟩

/-- `Changed` を読んで始める取り寄せが終われば、その group も揃う。 -/
theorem Upkept.pushed {job : Job} {group : String}
    (h : Upkept prim inner own hnonce ⟨⟨l, .live job⟩, stream, .changed group :: wire⟩) :
    Upkept prim inner own hnonce
      ⟨Replica.start (node prim own) prim own l (.group group), stream, wire⟩ := by
  obtain ⟨hatt, hdone⟩ := h.poised
  have hpushed : Tended prim inner own wrote
      ⟨Replica.start (node prim own) prim own l (.group group), stream, wire⟩ ∧
      InScope ⟨Replica.start (node prim own) prim own l (.group group), stream, wire⟩ group :=
    h.tended.pushed
  obtain ⟨ht, hin⟩ := hpushed
  refine ⟨ht, hatt, Setting.Safe.mono (Discipline.safe_syncGroupViaFetch
    (D := tending prim inner own hnonce) (Γ := fun c => ∃ g, c = .done g ∧ g ≠ group) ?_ ht ?_ hin)
    fun _ w _ hpost g => ?_⟩
  · rintro c ⟨g, rfl, hne⟩ he
    exact hne (Option.some.inj he).symm
  · rintro c ⟨g, rfl, hne⟩
    exact (hdone g).pushed hne
  · by_cases hne : g = group
    · exact hne ▸ hpost.2
    · exact hpost.1 _ ⟨g, rfl, hne⟩

/-- 要求のほかの一歩。 -/
theorem Upkept.moves (hm : Moves prim own s s')
    (h : Upkept prim inner own hnonce s) :
    Upkept prim inner own hnonce s' := by
  cases hm with
  | served hs => exact h.served hs
  | idle hl _ =>
    refine ⟨h.tended.quiet hl (.refl _), h.poised.onward rfl (fun hatt => ?_) fun _ hg => ?_⟩
    · exact ⟨onward_quiet hl (.refl _), hatt⟩
    · exact hg.quiet hl (.refl _) fun _ _ => id
  | opened => exact h.hello
  | greeted hmerge hl =>
    obtain ⟨hc, hs⟩ := merge_notice hmerge
    have hsame := (connected_same hl).1
    exact ⟨h.tended.quiet hsame (sameNotices_cons hc hs),
      h.poised.quiet hsame (sameNotices_cons hc hs) fun _ _ hu => hu.greeted hmerge⟩
  | listed hl => exact h.listed hl
  | pushed => exact h.pushed
  | acted =>
    obtain ⟨hatt, hsafe⟩ := h.poised
    obtain ⟨ht, hsafe⟩ := (hsafe _ (Setting.refl _ _) h.tended).resolve_left id
    exact ⟨ht.quiet (.refl _) (.refl _), hatt,
      Setting.Safe.stable hsafe (rely_of_onward (onward_quiet (.refl _) (.refl _)))⟩
  | finished =>
    obtain ⟨hatt, hsafe⟩ := h.poised
    have hdone := hsafe _ (Setting.refl _ _) h.tended
    exact ⟨h.tended.quiet (.refl _) (.refl _), hatt,
      fun g => (hdone g).onward (onward_quiet (.refl _) (.refl _))⟩
  | @left l₀ l₁ phase₀ phase₁ stream wire hl _ hp =>
    have ht : Tended prim inner own wrote ⟨⟨l₁, phase₁⟩, stream, wire⟩ := h.tended.quiet hl (.refl _)
    refine ⟨⟨ht.attested, ht.rows, fun _ hst => ?_, fun _ _ _ hst => ?_, fun _ _ hst => ?_,
      fun _ hg => absurd hg List.not_mem_nil⟩, ?_⟩
    · cases hst
    · cases hst
    · cases hst
    · rcases hp with rfl | rfl <;> trivial

end Phase

/-! ## 実行 -/

/-- Put の引いた nonce。 -/
def putNonce : System.Act → Option Bytes
  | .request amb _ (.put ..) => some amb.nonce.bytes
  | _ => none

/-- 実行の Put は、それぞれ新しい nonce を引く。 -/
def FreshNonces (acts : List System.Act) : Prop := (acts.filterMap putNonce).Nodup

instance (acts : List System.Act) : Decidable (FreshNonces acts) :=
  inferInstanceAs (Decidable (List.Nodup _))

theorem FreshNonces.index_eq {acts : List System.Act} (h : FreshNonces acts) {i j : Nat}
    {a b : System.Act} {nonce : Bytes} (ha : acts[i]? = some a) (hb : acts[j]? = some b)
    (hna : putNonce a = some nonce) (hnb : putNonce b = some nonce) : i = j := by
  have hpair := List.pairwise_iff_getElem.mp (List.pairwise_filterMap.mp h)
  obtain ⟨hi, rfl⟩ := List.getElem?_eq_some_iff.mp ha
  obtain ⟨hj, rfl⟩ := List.getElem?_eq_some_iff.mp hb
  rcases lt_trichotomy i j with hlt | he | hlt
  · exact absurd rfl (hpair i j hi hj hlt nonce hna nonce hnb)
  · exact he
  · exact absurd rfl (hpair j i hj hi hlt nonce hnb nonce hna)

variable (prim inner own) in
/-- 同じ nonce の行は、同じ Put の書いた行である。 -/
theorem FreshNonces.sameCipher {acts : List System.Act} (h : FreshNonces acts) (s₀ : System)
    (g n : String) (r : SecretDataRow) (v : Bytes) (r' : SecretDataRow) (v' : Bytes)
    (hr : wroteIn prim inner own s₀ acts g n r v) (hr' : wroteIn prim inner own s₀ acts g n r' v') :
    SameCipher r r' := by
  obtain ⟨i, amb, remote, e, hact, -, hrow, hn⟩ := hr
  obtain ⟨j, amb', remote', e', hact', -, hrow', hn'⟩ := hr'
  intro _ _ hnonce
  have hsame : amb'.nonce.bytes = amb.nonce.bytes := hn'.symm.trans (hnonce.symm.trans hn)
  have hij : i = j := h.index_eq hact hact' rfl (congrArg some hsame)
  subst hij
  rw [hrow] at hrow'
  cases hrow'
  rfl

/-- **どの実行のどの時刻でも、知らせは抜けていない。** -/
theorem upkept_run (laws : prim.Lawful) {db₀ : Db} {acts : List System.Act}
    (hfresh : FreshNonces acts)
    (hdb : Attested prim inner (wroteIn prim inner own (System.start db₀) acts) db₀) {t : Nat}
    (ht : t ≤ acts.length) :
    Upkept prim inner own (hfresh.sameCipher prim inner own (System.start db₀))
      ((System.start db₀).exec prim inner own (acts.take t)) := by
  induction t with
  | zero =>
    refine ⟨⟨hdb, fun hr => ?_, fun _ hst => ?_, fun _ _ _ hst => ?_, fun _ _ hst => ?_,
      fun _ hg => absurd hg List.not_mem_nil⟩, trivial⟩
    all_goals first | cases hr | cases hst
  | succ t ih =>
    have hlt : t < acts.length := ht
    have hact : acts[t]? = some acts[t] := List.getElem?_eq_getElem hlt
    have hi := ih (Nat.le_of_lt hlt)
    have hnext := @exec_take_succ prim inner own (System.start db₀) acts t _ hact
    by_cases hreq : ∃ amb remote req, acts[t] = .request amb remote req
    · obtain ⟨amb, remote, req, hreq⟩ := hreq
      rw [hreq] at hnext hact
      rw [hnext]
      refine hi.handle laws ?_
      rintro g n value e row rfl hresp hrow hnonce
      refine ⟨t, amb, remote, e, hact, hresp, ?_, hnonce⟩
      rw [hnext]
      exact hrow
    · rw [hnext]
      exact hi.moves (moves_step _ hi.tended.hosting fun amb remote req he =>
        hreq ⟨amb, remote, req, he⟩)

/-! ## 静まった系 -/

/-- 繋がった系で、もう誰も動かない。stream の task には送る物も受け取る event も閉じる batch も無く、
replica は届いた message をすべて処理し終えている。 -/
structure Quiescent (prim : Primitives) (s : System) : Prop where
  up : s.session.phase ≠ .down ∧ s.session.phase ≠ .stopped
  idle : ∀ job rest, s.session.phase ≠ .working job rest
  read : s.wire = []
  still : ∀ st now trigger, s.stream = some st → st.step prim now trigger s.upstream = none

theorem drained_of_recv {e : Receiver String} (h : e.recv = none) : e.Drained := by
  unfold Receiver.recv at h
  split at h
  · cases h
  · next hl =>
    split at h
    · next hq => exact ⟨hq, Bool.eq_false_iff.mpr hl⟩
    · cases h

/-- 知らせるだけの stream が動かないなら、送っていない知らせは無い。 -/
theorem not_unsent_of_still {now : Int} (hf : Following cached st.task)
    (h : ∀ trigger, st.step prim now trigger db = none) (g : String) : ¬ Unsent st g := by
  have hrecv := h .recv
  have htimeout := h .timeout
  unfold Stream.step at hrecv htimeout
  rcases hf with hf | ⟨lagged, batch, hf⟩
  · rw [hf] at hrecv
    have hd := drained_of_recv (Option.map_eq_none_iff.mp hrecv)
    rintro ⟨-, hg | ⟨_, _, _, hb, -⟩⟩
    · exact hd.not_holds hg
    · rw [hf] at hb
      cases hb
  · rw [hf] at htimeout
    cases htimeout

/-- manifest を送り終えていない stream は、まだ動ける。 -/
theorem Greeting.moves {stash : List GroupSyncState} (h : Greeting own wrote s stash)
    (hwire : s.wire = []) (hhost : ∀ st, s.stream = some st → Hosting own st) (now : Int) :
    ∃ st, s.stream = some st ∧ st.step prim now .proceed s.upstream ≠ none := by
  obtain ⟨st, snaps, hst, hu, -⟩ := h
  refine ⟨st, hst, fun hnone => ?_⟩
  have hreq := (hhost st hst).request
  rw [hwire] at hu
  unfold Stream.step at hnone
  generalize htask : st.task = task at hu hnone
  generalize hnil : ([] : List SyncMessage) = w at hu
  cases hu with
  | opening ht _ _ =>
    rcases ht with rfl | rfl
    · rw [hreq] at hnone
      cases hnone
    · dsimp only at hnone
      split at hnone <;> cases hnone
  | denied _ => cases hnil
  | @listing _ cached todo _ _ _ =>
    cases todo with
    | nil => cases hnone
    | cons x todo => cases hnone
  | @listed msgs _ _ _ _ _ _ => cases msgs <;> cases hnil

/-- 誰も動かない系では、replica は繋がっていて、どの group も揃っている。 -/
theorem Upkept.matched {hnonce : ∀ g n r v r' v', wrote g n r v → wrote g n r' v' → SameCipher r r'}
    (h : Upkept prim inner own hnonce s) (hq : Quiescent prim s) (g : String) :
    Matched s.upstream s.mirror own g := by
  have hpoised := h.poised
  unfold Poised at hpoised
  split at hpoised
  · obtain ⟨st, hst, hmoves⟩ := hpoised.moves hq.read h.tended.hosting 0
    exact absurd (hq.still st 0 .proceed hst) hmoves
  · next job rest hphase => exact absurd hphase (hq.idle job rest)
  · obtain ⟨⟨st, cached, hst, hf⟩, hdone⟩ := hpoised
    have hsent : ∀ m, m ∉ s.wire := by
      rw [hq.read]
      exact fun _ => List.not_mem_nil
    refine (hdone g).1.resolve_left ?_
    rintro (hc | hsc | ⟨u, hu, hun⟩)
    · exact hsent _ hc
    · exact hsent _ hsc
    · rw [hst] at hu
      cases hu
      exact not_unsent_of_still hf (fun trigger => hq.still st 0 trigger hst) g hun
  · next hmanifest hworking hlive =>
    cases hphase : s.session.phase with
    | down => exact absurd hphase hq.up.1
    | stopped => exact absurd hphase hq.up.2
    | manifest ok stash => exact absurd hphase (hmanifest ok stash)
    | working job rest => exact absurd hphase (hworking job rest)
    | live job => exact absurd hphase (hlive job)

/-- **静まった系の mirror は、上流を replica の READ の範囲に絞ったものである。**
要求、stream、取り寄せ、反映と切断がどう割り込んだ実行でも、誰も動かなくなった時には、mirror の
group は READ の行を持つ group に限られ、ACL、自分宛ての wrap、secret の行は上流と一致する。 -/
theorem quiescent_converged {op backup endpoint name : String} {db₀ : Db} {key : AgeIdentity}
    (laws : prim.Lawful) (hlen : endpoint.length = 64)
    (hinit : Node.init op backup endpoint name = some db₀)
    (hnew : Bunker.new prim db₀ key = some inner) {acts : List System.Act}
    (hfresh : FreshNonces acts)
    (hq : Quiescent prim ((System.start db₀).exec prim inner own acts)) :
    Converged ((System.start db₀).exec prim inner own acts).upstream
      ((System.start db₀).exec prim inner own acts).mirror own := by
  have hrun : Upkept prim inner own (hfresh.sameCipher prim inner own (System.start db₀))
      ((System.start db₀).exec prim inner own (acts.take acts.length)) :=
    upkept_run laws hfresh (Attested.init laws hlen hinit hnew) (le_refl _)
  rw [List.take_length] at hrun
  exact fun g => (hrun.matched hq g).view

/-- 知らせを待つ stream に event が無く、replica も知らせを待っているなら、系は静まっている。 -/
theorem quiescent_of_live {job : Job} (hphase : s.session.phase = .live job) (hread : s.wire = [])
    (hst : s.stream = some st) (htask : st.task = .live cached) (hd : st.events.recv = none) :
    Quiescent prim s := by
  refine ⟨⟨?_, ?_⟩, fun _ _ => ?_, hread, fun u now trigger hu => ?_⟩
  · rw [hphase]
    exact fun hc => nomatch hc
  · rw [hphase]
    exact fun hc => nomatch hc
  · rw [hphase]
    exact fun hc => nomatch hc
  · rw [hst] at hu
    cases hu
    unfold Stream.step
    rw [htask]
    cases trigger with
    | recv => exact Option.map_eq_none_iff.mpr hd
    | _ => rfl

/-- 知らせを待つ居場所か。 -/
def Phase.isLive {Υ : Type} : Phase Υ → Bool
  | .live _ => true
  | _ => false

theorem quiescent_sampleRun :
    Quiescent plain ((System.start sampleDb).exec plain sampleInner (samplePeer 'b') sampleRun) := by
  have hlive : ((System.start sampleDb).exec plain sampleInner (samplePeer 'b')
      sampleRun).session.phase.isLive = true := by decide +kernel
  have hread : ((System.start sampleDb).exec plain sampleInner (samplePeer 'b') sampleRun).wire =
      [] := by decide +kernel
  have hst : ((System.start sampleDb).exec plain sampleInner (samplePeer 'b') sampleRun).stream =
      some ⟨samplePeer 'b', .hello, .live ["g"], .fresh⟩ := by decide +kernel
  generalize (System.start sampleDb).exec plain sampleInner (samplePeer 'b') sampleRun = s
    at hlive hread hst ⊢
  cases hphase : s.session.phase with
  | live job => exact quiescent_of_live hphase hread hst rfl rfl
  | _ =>
    rw [hphase] at hlive
    cases hlive

theorem quiescent_converged_sample :
    Converged ((System.start sampleDb).exec plain sampleInner (samplePeer 'b') sampleRun).upstream
      ((System.start sampleDb).exec plain sampleInner (samplePeer 'b') sampleRun).mirror
      (samplePeer 'b') :=
  quiescent_converged plain_lawful (by decide) init_sampleDb new_sampleDb (by decide +kernel)
    quiescent_sampleRun

end Replica

end SecretBunker
