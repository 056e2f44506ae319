import SecretBunker.Replica.Registered
import SecretBunker.Replica.Snapshot

/-!
# `full_resync` の結果

上流が動かない間に manifest のすべてを写すと、mirror の中身は上流を READ の範囲に絞ったものになる。
前に何があったか、manifest がどの順に並ぶかには依らない。

名前や endpoint の食い違う identity は規則 1 で消え、ほかの group の ACL も道連れになる。
一つの上流から読んだ ACL どうしは食い違わないので、写し終えた group は後の反映に乱されない。
-/

namespace SecretBunker

open Interleaving Relational Store SyncServer

/-- mirror の中身。rowid は含まない。 -/
structure Contents where
  groups : String → Option GroupView
  /-- endpoint、名前、管理者の印。 -/
  identities : Set (String × String × Bool)
  /-- group、version、宛先と中身。 -/
  wraps : Set (String × Nat × String × Bytes)

def contents (mirror : Db) (own : String) : Contents where
  groups := viewOf mirror own
  identities := { x | ∃ i ∈ mirror.identity, x = (i.endpointId, i.name, i.serviceAdmin) }
  wraps := { x | ∃ gid, groupId mirror x.1 = some gid ∧ ⟨gid, x.2.1, x.2.2.1, x.2.2.2⟩ ∈ mirror.dekWrap }

/-- 上流を replica の READ の範囲に絞った中身。 -/
def scopeContents (up : Db) (own : String) : Contents where
  groups := fun g => (syncReadAuthorized up own g).map (groupView up own)
  identities := { x | x.2.2 = false ∧ ∃ g gid p, syncReadAuthorized up own g = some gid ∧
    (x.2.1, x.1, p) ∈ aclEntriesFull up gid }
  wraps := { x | x.2.2.1 = own ∧ ∃ gid, syncReadAuthorized up own x.1 = some gid ∧
    ⟨gid, x.2.1, own, x.2.2.2⟩ ∈ up.dekWrap }

namespace Replica

variable {prim : Primitives} {up : Db} {own : String}

/-- 揃った group：見え方が上流のもので、余計なものが無い。 -/
structure Matched (up mirror : Db) (own g : String) : Prop where
  view : viewOf mirror own g = (syncReadAuthorized up own g).map (groupView up own)
  clean : Clean mirror own g

/-- 動かない上流について手続きの知る事実。 -/
def Known (up : Db) (own : String) (l : Link Db) : Fact → Prop
  | .named _ => True
  | .state s => ∃ gid, syncReadAuthorized up own s.name = some gid ∧
      s = snapshotGroup up gid s.name own
  | .gone g => syncReadAuthorized up own g = none
  | .granted g gid => syncReadAuthorized up own g = some gid
  | .fetched g f => ∃ gid, syncReadAuthorized up own g = some gid ∧
      secretDataCurrent up gid f.name = some f.toSecretDataRow
  | .missing g n => ∃ gid, syncReadAuthorized up own g = some gid ∧
      secretDataCurrent up gid n = none
  | .done g => Matched up l.mirror own g
  | .manifest names => ∀ g, g ∈ names ↔ syncReadAuthorized up own g ≠ none

/-- 上流は `up` のままで、手元の行は上流の行と取り違えられない。 -/
structure Frozen (up : Db) (l : Link Db) : Prop where
  upstream : SameRows up l.upstream
  faithful : ∀ g, Faithful up l.mirror g

theorem Known.same {l l' : Link Db} (hs : l.Same l') {c : Fact} (h : Known up own l c) :
    Known up own l' c := by
  cases c with
  | done g =>
    obtain ⟨log, hlog⟩ := hs.mirror
    change Matched up l'.mirror own g
    rw [hlog]
    exact ⟨h.view, h.clean⟩
  | _ => exact h

theorem Frozen.same {l l' : Link Db} (hs : l.Same l') (h : Frozen up l) : Frozen up l' := by
  obtain ⟨log, hlog⟩ := hs.mirror
  refine ⟨h.upstream.trans hs.upstream, ?_⟩
  rw [hlog]
  exact h.faithful

/-- 取り寄せた行を写しても、手元の行は上流の行と取り違えられない。 -/
theorem faithful_applied {mirror db : Db} {gid gm : Nat} {g : String} {rows : List FetchedSecret}
    (hauth : syncReadAuthorized up own g = some gid)
    (hf : Fresh up mirror gid (snapshotGroup up gid g own) rows)
    (hfaith : ∀ g, Faithful up mirror g)
    (h : Applied own (snapshotGroup up gid g own)
      (decryptable (snapshotGroup up gid g own) rows) gm mirror db) (g' : String) :
    Faithful up db g' := by
  intro n r r' hr hr'
  rw [h.slotOf] at hr
  split at hr
  · next hg =>
    change g' = g at hg
    subst hg
    split at hr
    · cases hr
    · unfold fetchedSlot at hr
      cases hl : latest (decryptable (snapshotGroup up gid g' own) rows) n with
      | none =>
        rw [hl] at hr
        exact hfaith g' n r r' hr hr'
      | some f =>
        -- 写した行は、上流の今の行そのものである
        rw [hl] at hr
        obtain ⟨hm, rfl⟩ := latest_eq_some hl
        have hrow := hf.fetched f (List.mem_filter.mp hm).1
        rw [slotOf_eq (syncReadAuthorized_eq_some.mp hauth).1] at hr'
        cases hr
        rw [show r' = f.toSecretDataRow from Option.some.inj (hr'.symm.trans hrow)]
        exact fun _ _ _ => rfl
  · exact hfaith g' n r r' hr hr'

/-- 揃った group は、同じ上流から読んだほかの group の反映に乱されない。 -/
theorem Matched.applied_other {mirror db : Db} {gid gm : Nat} {g g' : String}
    {rows : List FetchedSecret} (hs : Matched up mirror own g') (hne : g' ≠ g)
    (h : Applied own (snapshotGroup up gid g own) rows gm mirror db) : Matched up db own g' := by
  have hag : ∀ v, viewOf mirror own g' = some v → ∀ e ∈ v.acl,
      Agrees (effectiveAcl (snapshotGroup up gid g own).acl) e.1 e.2.1 := by
    intro v hv e he
    rw [hs.view] at hv
    obtain ⟨gid', -, rfl⟩ := Option.map_eq_some_iff.mp hv
    exact agrees_snapshot he
  exact ⟨(h.viewOf_other hne hag).trans hs.view, h.clean_other hne hag hs.clean⟩

/-- 動かない上流に対する同期の規則。 -/
def frozen (hu : Servable prim up) : Discipline own (Link Db) where
  toSetting := Setting.alone (Frozen up) Link.Same Link.Same.refl Link.Same.trans
  holds := fun c l => Known up own l c
  stable := fun hr h => h.same hr
  mirror_stable := fun hr => hr.mirror
  quiet := fun hi hs => ⟨hs, hi.same hs⟩
  named_of_state := fun _ _ => trivial
  read_group := by
    intro group w hi _
    obtain ⟨log, hlog⟩ := hi.upstream
    change match syncReadAuthorized w.upstream own group with
      | some gid => Known up own w (.state (snapshotGroup w.upstream gid group own))
      | none => Known up own w (.gone group)
    rw [hlog]
    change match syncReadAuthorized up own group with
      | some gid => Known up own w (.state (snapshotGroup up gid group own))
      | none => Known up own w (.gone group)
    cases hauth : syncReadAuthorized up own group with
    | none => exact hauth
    | some gid => exact ⟨gid, hauth, rfl⟩
  authorize := by
    intro s w hi _
    obtain ⟨log, hlog⟩ := hi.upstream
    change match syncReadAuthorized w.upstream own s.name with
      | some gid => Known up own w (.granted s.name gid)
      | none => Known up own w (.gone s.name)
    rw [hlog]
    change match syncReadAuthorized up own s.name with
      | some gid => Known up own w (.granted s.name gid)
      | none => Known up own w (.gone s.name)
    cases hauth : syncReadAuthorized up own s.name with
    | none => exact hauth
    | some gid => exact hauth
  read_row := by
    intro group gid w name hi hg
    obtain ⟨log, hlog⟩ := hi.upstream
    change match secretDataCurrent w.upstream gid name with
      | some row => Known up own w (.fetched group { row with name })
      | none => Known up own w (.missing group name)
    rw [hlog]
    change match secretDataCurrent up gid name with
      | some row => Known up own w (.fetched group { row with name })
      | none => Known up own w (.missing group name)
    cases hrow : secretDataCurrent up gid name with
    | none => exact ⟨gid, hg, hrow⟩
    | some row => exact ⟨gid, hg, hrow⟩
  apply := by
    rintro s w rows gm db db' hi ⟨gid, hauth, hs⟩ hfetched hmissing hasked happ ⟨log, rfl⟩
    generalize s.name = g at *
    subst hs
    have hfresh : Fresh up w.mirror gid (snapshotGroup up gid g own) rows := by
      refine ⟨fun f hf => ?_, fun n hn hno => ?_, hasked⟩
      · obtain ⟨gid', hauth', hrow⟩ := hfetched f hf
        rw [hauth] at hauth'
        cases hauth'
        exact hrow
      · obtain ⟨gid', hauth', hrow⟩ := hmissing n hn hno
        rw [hauth] at hauth'
        cases hauth'
        exact hrow
    have hfaith : ∀ g', Faithful up db g' := faithful_applied hauth hfresh hi.faithful happ
    have hview : viewOf db own g = some (groupView up own gid) :=
      viewOf_applied hu hauth hfresh (hi.faithful g) happ
    refine ⟨⟨hi.upstream, hfaith⟩, ⟨?_, happ.clean⟩, ?_⟩
    · rw [hauth]
      exact hview
    · intro c hc h
      cases c with
      | done g' =>
        have hset : Matched up db own g' := Matched.applied_other h (fun he => hc (he ▸ rfl)) happ
        exact ⟨hset.view, hset.clean⟩
      | named _ => trivial
      | manifest _ => exact h
      | state _ => exact h
      | _ => exact hc.elim
  drop := by
    intro g w hi hgone
    have hd := dropGroupLocal_spec w.mirror g
    have hclean : ∀ g', Clean w.mirror own g' → Clean (dropGroupLocal w.mirror g).2 own g' :=
      fun _ => hd.clean
    refine ⟨⟨hi.upstream, fun g' n r r' hr hr' => ?_⟩, ⟨?_, fun gid hgid => ?_⟩, ?_⟩
    · change (slotOf (dropGroupLocal w.mirror g).2 g' n).2 = some r at hr
      rw [hd.slotOf] at hr
      split at hr
      · cases hr
      · exact hi.faithful g' n r r' hr hr'
    · change syncReadAuthorized up own g = none at hgone
      rw [hgone]
      exact (hd.viewOf g).trans (if_pos rfl)
    · exact absurd (hgid.symm.trans ((hd.groups g).trans (if_pos rfl))) (Option.some_ne_none gid)
    · intro c hc h
      cases c with
      | done g' =>
        have hne : g' ≠ g := fun he => hc (congrArg some he.symm)
        exact ⟨((hd.viewOf g').trans (if_neg hne)).trans h.view, hclean g' h.clean⟩
      | named _ => trivial
      | manifest _ => exact h
      | state _ => exact h
      | _ => exact hc.elim
  gc := by
    intro w hi
    refine ⟨⟨hi.upstream, hi.faithful⟩, fun c hc h => ?_⟩
    cases c with
    | done g => exact ⟨(gc_viewOf w.mirror own g).trans h.view, gc_clean h.clean⟩
    | named _ => trivial
    | manifest _ => exact h
    | state _ => exact h
    | _ => exact hc.elim
  stale := fun _ hm hg => not_not.mp fun hne => hg ((hm _).mpr hne)
  absent := by
    intro names g w hi hm hg habs
    have hgone : syncReadAuthorized up own g = none := not_not.mp fun hne => hg ((hm g).mpr hne)
    refine ⟨?_, fun gid hgid => ?_⟩
    · rw [hgone, viewOf]
      exact congrArg (Option.map _) habs
    · exact absurd (hgid.symm.trans habs) (Option.some_ne_none gid)

/-! ## 中身 -/

/-- すべての group が揃い、掃かれた mirror の中身は、上流を範囲に絞ったものである。 -/
theorem contents_of_matched {mirror : Db} (hm : ∀ g, Matched up mirror own g) (hs : Swept mirror) :
    contents mirror own = scopeContents up own := by
  -- mirror の group と上流の group は、名前で対応する
  have hpair : ∀ {g gm}, groupId mirror g = some gm → ∃ gid, syncReadAuthorized up own g = some gid ∧
      groupView mirror own gm = groupView up own gid := by
    intro g gm hg
    have hv := (hm g).view
    rw [viewOf, hg] at hv
    obtain ⟨gid, hauth, hv⟩ := Option.map_eq_some_iff.mp hv.symm
    exact ⟨gid, hauth, hv.symm⟩
  have hback : ∀ {g gid}, syncReadAuthorized up own g = some gid →
      ∃ gm, groupId mirror g = some gm ∧ groupView mirror own gm = groupView up own gid := by
    intro g gid hauth
    have hv := (hm g).view
    rw [hauth] at hv
    exact Option.map_eq_some_iff.mp hv
  unfold contents scopeContents
  congr 1
  · exact funext fun g => (hm g).view
  · ext ⟨e, n, adm⟩
    constructor
    · rintro ⟨i, hi, hx⟩
      obtain ⟨rfl, rfl, rfl⟩ : e = i.endpointId ∧ n = i.name ∧ adm = i.serviceAdmin := by simpa using hx
      obtain ⟨a, ha, hai⟩ := hs i hi
      obtain ⟨g, gm, hg, he⟩ := listed_of_acl hi ha hai
      obtain ⟨gid, hauth, hv⟩ := hpair hg
      obtain ⟨j, hj, -, hje, hja⟩ := mem_aclEntriesFull.mp he
      obtain rfl : j = i := Table.eq_of_conflict hj hi (Or.inr (Or.inl hje))
      refine ⟨((hm g).clean gm hg).2 _ hja rfl j hj rfl, g, gid, a.perms, hauth, ?_⟩
      rw [show aclEntriesFull up gid = aclEntriesFull mirror gm from congrArg GroupView.acl hv.symm]
      exact he
    · rintro ⟨hadm, g, gid, p, hauth, he⟩
      change adm = false at hadm
      obtain ⟨gm, hg, hv⟩ := hback hauth
      rw [show aclEntriesFull up gid = aclEntriesFull mirror gm from congrArg GroupView.acl hv.symm] at he
      obtain ⟨i, hi, hin, hie, hia⟩ := mem_aclEntriesFull.mp he
      refine ⟨i, hi, ?_⟩
      rw [((hm g).clean gm hg).2 _ hia rfl i hi rfl, hadm, hin, hie]
  · ext ⟨g, v, r, b⟩
    have hwrap : ∀ {gm gid}, groupView mirror own gm = groupView up own gid →
        (⟨gm, v, own, b⟩ ∈ mirror.dekWrap ↔ ⟨gid, v, own, b⟩ ∈ up.dekWrap) := by
      intro gm gid hv
      rw [← mem_wrapsForRecipient (w := (v, b)), ← mem_wrapsForRecipient (w := (v, b))]
      rw [show wrapsForRecipient mirror gm own = wrapsForRecipient up gid own from
        congrArg GroupView.wraps hv]
    constructor
    · rintro ⟨gm, hg, hw⟩
      obtain ⟨gid, hauth, hv⟩ := hpair hg
      obtain rfl : r = own := ((hm g).clean gm hg).1 _ hw rfl
      exact ⟨rfl, gid, hauth, (hwrap hv).mp hw⟩
    · rintro ⟨hr, gid, hauth, hw⟩
      change r = own at hr
      subst hr
      obtain ⟨gm, hg, hv⟩ := hback hauth
      exact ⟨gm, hg, (hwrap hv).mpr hw⟩

/-- 上流の今の manifest。 -/
def manifestOf (up : Db) (own : String) : List GroupSyncState :=
  ((scopeOf up own).getD []).map fun x => snapshotGroup up x.1 x.2 own

theorem names_manifestOf (up : Db) (own : String) :
    (manifestOf up own).map (·.name) = currentScopeNames up own := by
  unfold manifestOf currentScopeNames
  rw [List.map_map]
  rfl

theorem mem_manifestOf {s : GroupSyncState} (h : s ∈ manifestOf up own) :
    ∃ gid, syncReadAuthorized up own s.name = some gid ∧ s = snapshotGroup up gid s.name own := by
  obtain ⟨x, hx, rfl⟩ := List.mem_map.mp h
  cases hs : scopeOf up own with
  | none =>
    rw [hs] at hx
    exact absurd hx List.not_mem_nil
  | some scope =>
    rw [hs] at hx
    exact ⟨x.1, (mem_scopeOf hs).mp hx, rfl⟩

/-- **`full_resync` の後の mirror は、上流を replica の READ の範囲に絞ったものである。**
前に何があったか、manifest がどの順に並ぶかには依らない。 -/
theorem full_resync_mirrors_scope (hu : Servable prim up) (l : Link Db) (hl : l.upstream = up)
    (hfaith : ∀ g, Faithful up l.mirror g) (stash : List GroupSyncState)
    (horder : stash.Perm (manifestOf up own)) :
    ∃ l', (fullResync (node prim own) prim own stash).run l = (some (), l') ∧
      contents l'.mirror own = scopeContents up own := by
  have hnames : (stash.map (·.name)).Perm (currentScopeNames up own) :=
    names_manifestOf up own ▸ horder.map (·.name)
  have hi : Frozen up l := ⟨hl ▸ .refl _, hfaith⟩
  have hsafe : (Setting.alone (Frozen up) Link.Same Link.Same.refl Link.Same.trans).Safe
      (fun _ l => ∀ g, Matched up l.mirror own g) (fullResync (node prim own) prim own stash) l := by
    refine Discipline.safe_fullResync (D := frozen hu) ?_ hi ?_ fun s hs => ?_
    · exact hnames.nodup_iff.mpr (currentScopeNames_sorted up own).2
    · exact fun g => hnames.mem_iff.trans mem_currentScopeNames
    · exact mem_manifestOf (horder.mem_iff.mp hs)
  obtain ⟨u, hfst, -, hdone⟩ := Setting.run_of_safe hi hsafe
  have hrun : (fullResync (node prim own) prim own stash).run l =
      (some u, ((fullResync (node prim own) prim own stash).run l).2) := Prod.ext hfst rfl
  refine ⟨_, hrun, contents_of_matched hdone ?_⟩
  exact Setting.post_of_run (fun _ => rfl) (fun _ _ => rfl) (fun _ => id) trivial
    (ends_fullResync stash l) hrun

/-- 管理者の identity だけが残る、古い mirror からの接続。 -/
def staleLink : Link Db := ⟨sampleUpstream, sampleDb, 0, [], false, none⟩

theorem slotOf_sampleDb (g n : String) : slotOf sampleDb g n = (none, none) := by
  have hrows : sampleDb.secretGroup.rows = [] := by decide +kernel
  refine slotOf_absent (groupId_eq_none.mpr fun r hr => ?_)
  have hr : r ∈ sampleDb.secretGroup.rows := hr
  rw [hrows] at hr
  exact absurd hr List.not_mem_nil

theorem full_resync_mirrors_scope_sample :
    ∃ l', (fullResync (node plain (samplePeer 'b')) plain (samplePeer 'b')
        (manifestOf sampleUpstream (samplePeer 'b')).reverse).run staleLink = (some (), l') ∧
      contents l'.mirror (samplePeer 'b') = scopeContents sampleUpstream (samplePeer 'b') := by
  refine full_resync_mirrors_scope (servable_exec plain_lawful (by decide) init_sampleDb _)
    staleLink rfl ?_ _ (List.reverse_perm _)
  intro g n r r' hr
  change (slotOf sampleDb g n).2 = some r at hr
  rw [slotOf_sampleDb] at hr
  cases hr

end Replica

end SecretBunker
