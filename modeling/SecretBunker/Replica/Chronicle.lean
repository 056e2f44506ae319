import SecretBunker.Replica.System

/-!
# mirror の行の由来

mirror にあるどの行も、かつて上流の今の行だったものである。取り寄せは、それまでの反映がすべて
終わった後に上流を読むので、mirror の行は上流の時間を遡らない。
また、行はその DEK の wrap と揃ってしか写らないので、READ を失わない group では、
一覧に見える名前はいつでも復号できる。

上流の時刻は実行の何歩目かで数える。`Ahead` が環境の歩みで、手続きの知る事実はこの下で残る。
-/

namespace SecretBunker

open Interleaving Relational Replica.System Store SyncServer

namespace Replica

/-- 系と、実行の中の時刻。 -/
structure Timed where
  sys : System
  time : Nat

/-- 見ている実行。`state` は時刻ごとの系、`kept` は READ を失わない group である。 -/
structure Chronicle where
  prim : Primitives
  inner : Inner
  own : String
  wrote : Writing
  state : Nat → System
  kept : String → Prop

namespace Chronicle

variable (c : Chronicle)

/-- 時刻 `t` の上流の今の行。 -/
def source (t : Nat) (g n : String) : Option SecretDataRow := (slotOf (c.state t).upstream g n).2

/-- これまでのどこかで mirror にあった行。 -/
def EverHeld (w : Timed) (g n : String) (r : SecretDataRow) : Prop :=
  (slotOf w.sys.mirror g n).2 = some r ∨ ∃ i ≤ w.time, (slotOf (c.state i).mirror g n).2 = some r

/-- 上流の今の行だった時刻があり、これまで mirror にあったどの行も、それより後の行ではない。 -/
def Recent (w : Timed) (g n : String) (r : SecretDataRow) : Prop :=
  ∃ q ≤ w.time, c.source q g n = some r ∧
    ∀ r', c.EverHeld w g n r' → ∃ p ≤ q, c.source p g n = some r'

/-- mirror に写してよい行。 -/
def Row (w : Timed) (g n : String) (r : SecretDataRow) : Prop :=
  Genuine c.prim c.wrote w.sys.upstream g n r ∧ c.Recent w g n r

/-- Hello の stream と、それがこれから読む group。 -/
def Scheduled (w : Timed) : Prop :=
  ∀ st, w.sys.stream = some st → Hosting c.own st ∧
    ∀ cached todo, st.task = .manifest cached todo → ∀ x ∈ todo,
      groupId w.sys.upstream x.2 = some x.1 ∧
        (c.kept x.2 → syncReadAuthorized w.sys.upstream c.own x.2 = some x.1)

/-- 行と wrap の揃った世界。 -/
structure Sound (w : Timed) : Prop where
  attested : Attested c.prim c.inner c.wrote w.sys.upstream
  present : ∀ g n, (slotOf w.sys.upstream g n).2 = c.source w.time g n
  scheduled : c.Scheduled w
  rows : ∀ {g n r}, (slotOf w.sys.mirror g n).2 = some r → c.Row w g n r
  wraps : ∀ {g v b}, wrapOf w.sys.mirror c.own g v = some b →
    OwnWrap c.prim c.own w.sys.upstream g v b
  /-- これまで mirror にあった行は、それより前に上流の行だった。 -/
  past : ∀ {i g n r}, i ≤ w.time → (slotOf (c.state i).mirror g n).2 = some r →
    ∃ p ≤ i, c.source p g n = some r
  /-- READ を失わない group では、一覧の名前に行があり、行に wrap がある。 -/
  ready : ∀ {g n}, c.kept g → (slotOf w.sys.mirror g n).1 ≠ none →
    ∃ r, (slotOf w.sys.mirror g n).2 = some r ∧ wrapOf w.sys.mirror c.own g r.dekVersion ≠ none

/-- 状態の wrap は自分宛てで、手元のどの行の version にも及ぶ。 -/
structure Covers (w : Timed) (s : GroupSyncState) : Prop where
  wraps : ∀ d ∈ s.deks, OwnWrap c.prim c.own w.sys.upstream s.name d.version d.wrapped
  versions : c.kept s.name → ∀ n r, (slotOf w.sys.mirror s.name n).2 = some r →
    ∃ d ∈ s.deks, d.version = r.dekVersion

def Knows (w : Timed) : Fact → Prop
  | .state s => c.Covers w s
  | .granted g gid => groupId w.sys.upstream g = some gid
  | .fetched g f => c.Row w g f.name f.toSecretDataRow
  | _ => True

/-! ## 環境の歩み -/

/-- 上流だけが進み、mirror の行は変わらない。 -/
structure Ahead (w w' : Timed) : Prop where
  upstream : Stable c.prim w.sys.upstream w'.sys.upstream
  mirror : SameRows w.sys.mirror w'.sys.mirror
  time : w.time ≤ w'.time
  held : ∀ {g n r}, c.EverHeld w' g n r → c.EverHeld w g n r

variable {c} {w w' : Timed}

theorem Ahead.refl (w : Timed) : c.Ahead w w := ⟨.refl _, .refl _, le_refl _, id⟩

theorem Ahead.trans {v : Timed} (h : c.Ahead w v) (h' : c.Ahead v w') : c.Ahead w w' :=
  ⟨h.upstream.trans h'.upstream, h.mirror.trans h'.mirror, h.time.trans h'.time,
    fun hr => h.held (h'.held hr)⟩

variable {g n : String} {r : SecretDataRow} {db : Db}

theorem Recent.later (h : c.Recent w g n r) (ht : w.time ≤ w'.time)
    (hheld : ∀ r', c.EverHeld w' g n r' → c.EverHeld w g n r' ∨ r' = r) : c.Recent w' g n r := by
  obtain ⟨q, hq, hsrc, hlate⟩ := h
  refine ⟨q, hq.trans ht, hsrc, fun r' hr' => ?_⟩
  rcases hheld r' hr' with hr' | rfl
  · exact hlate r' hr'
  · exact ⟨q, le_refl q, hsrc⟩

theorem Row.ahead (h : c.Row w g n r) (ha : c.Ahead w w') : c.Row w' g n r :=
  ⟨h.1.stable ha.upstream, h.2.later ha.time fun _ hr => Or.inl (ha.held hr)⟩

theorem Knows.ahead (ha : c.Ahead w w') {f : Fact} (h : c.Knows w f) : c.Knows w' f := by
  cases f with
  | state s =>
    refine ⟨fun d hd => (h.wraps d hd).stable ha.upstream, fun hk n r hr => ?_⟩
    rw [ha.mirror.slotOf] at hr
    exact h.versions hk n r hr
  | granted g gid => exact ha.upstream.groupId h
  | fetched g f => exact Row.ahead h ha
  | _ => trivial

theorem Sound.ahead (h : c.Sound w) (ha : c.Ahead w w')
    (hatt : Attested c.prim c.inner c.wrote w'.sys.upstream)
    (hpres : ∀ g n, (slotOf w'.sys.upstream g n).2 = c.source w'.time g n)
    (hpast : ∀ {i g n r}, i ≤ w'.time → (slotOf (c.state i).mirror g n).2 = some r →
      ∃ p ≤ i, c.source p g n = some r) (hsched : c.Scheduled w') : c.Sound w' where
  attested := hatt
  present := hpres
  scheduled := hsched
  past := hpast
  rows := by
    intro g n r hr
    rw [ha.mirror.slotOf] at hr
    exact (h.rows hr).ahead ha
  wraps := by
    intro g v b hb
    rw [ha.mirror.wrapOf] at hb
    exact (h.wraps hb).stable ha.upstream
  ready := by
    intro g n hk hn
    rw [ha.mirror.slotOf] at hn ⊢
    obtain ⟨r, hr, hw⟩ := h.ready hk hn
    exact ⟨r, hr, by rwa [ha.mirror.wrapOf]⟩

/-- session の手の届くところを書き換えた世界。 -/
def put (w : Timed) (l : Link Db) : Timed :=
  { w with sys := { w.sys with session := { w.sys.session with link := l } } }

/-- audit と event だけの動作。 -/
theorem quiet {l : Link Db} (h : c.Sound w) (hs : w.sys.session.link.Same l) :
    c.Ahead w (put w l) ∧ c.Sound (put w l) := by
  have ha : c.Ahead w (put w l) := by
    refine ⟨hs.upstream.stable, hs.mirror, le_refl _, ?_⟩
    rintro g n r (hr | hr)
    · change (slotOf l.mirror g n).2 = some r at hr
      rw [hs.mirror.slotOf] at hr
      exact Or.inl hr
    · exact Or.inr hr
  refine ⟨ha, h.ahead ha (hs.upstream.attested h.attested) (fun g n => ?_) h.past ?_⟩
  · exact (congrArg Prod.snd (hs.upstream.slotOf g n)).trans (h.present g n)
  · obtain ⟨log, hlog⟩ := hs.upstream
    intro st hst
    change Hosting c.own st ∧ ∀ cached todo, st.task = .manifest cached todo → ∀ x ∈ todo,
      groupId l.upstream x.2 = some x.1 ∧
        (c.kept x.2 → syncReadAuthorized l.upstream c.own x.2 = some x.1)
    rw [hlog]
    exact h.scheduled st hst

/-! ## mirror の動き -/

/-- mirror だけを書き換えた世界。 -/
def withMirror (w : Timed) (db : Db) : Timed := put w { w.sys.session.link with mirror := db }

/-- 行が前のままか、消えたか、写してよい行に替わったなら、行の由来は保たれる。 -/
theorem Sound.remirror (h : c.Sound w)
    (hslot : ∀ g n, slotOf db g n = slotOf w.sys.mirror g n ∨ slotOf db g n = (none, none) ∨
      ∃ r, c.Row w g n r ∧ slotOf db g n = (some r.version, some r))
    (hwraps : ∀ {g v b}, wrapOf db c.own g v = some b → OwnWrap c.prim c.own w.sys.upstream g v b)
    (hready : ∀ {g n}, c.kept g → (slotOf db g n).1 ≠ none →
      ∃ r, (slotOf db g n).2 = some r ∧ wrapOf db c.own g r.dekVersion ≠ none) :
    c.Sound (withMirror w db) where
  attested := h.attested
  present := h.present
  scheduled := h.scheduled
  past := h.past
  rows := by
    intro g n r hr
    change (slotOf db g n).2 = some r at hr
    have hrow : c.Row w g n r ∧ ((slotOf db g n).2 = (slotOf w.sys.mirror g n).2 ∨
        (slotOf db g n).2 = some r) := by
      rcases hslot g n with hold | hnone | ⟨r', hr', hnew⟩
      · exact ⟨h.rows (hold ▸ hr), Or.inl (congrArg Prod.snd hold)⟩
      · rw [hnone] at hr
        cases hr
      · rw [hnew] at hr
        cases hr
        exact ⟨hr', Or.inr (congrArg Prod.snd hnew)⟩
    refine ⟨hrow.1.1, hrow.1.2.later (le_refl _) ?_⟩
    rintro r' (hr' | hr')
    · change (slotOf db g n).2 = some r' at hr'
      exact Or.inr (Option.some.inj (hr'.symm.trans hr))
    · exact Or.inl (Or.inr hr')
  wraps := hwraps
  ready := hready

theorem Covers.other {s : GroupSyncState} (h : c.Covers w s)
    (hs : ∀ n, slotOf db s.name n = slotOf w.sys.mirror s.name n) :
    c.Covers (withMirror w db) s := by
  refine ⟨h.wraps, fun hk n r hr => h.versions hk n r ?_⟩
  rw [← hs]
  exact hr

/-- 反映は、写してよい行と自分宛ての wrap だけを入れる。 -/
theorem Sound.applied {s : GroupSyncState} {rows : List FetchedSecret} {gid : Nat} (h : c.Sound w)
    (hs : c.Covers w s) (hrows : ∀ f ∈ rows, c.Row w s.name f.name f.toSecretDataRow)
    (ha : Applied c.own s (decryptable s rows) gid w.sys.mirror db) :
    c.Sound (withMirror w db) := by
  have hfetched : ∀ f ∈ decryptable s rows, f ∈ rows ∧ ∃ d ∈ s.deks, d.version = f.dekVersion := by
    intro f hf
    obtain ⟨hf, hd⟩ := List.mem_filter.mp hf
    obtain ⟨d, hd, hv⟩ := List.any_eq_true.mp hd
    exact ⟨hf, d, hd, beq_iff_eq.mp hv⟩
  refine h.remirror (fun g n => ?_) ?_ ?_
  · rcases ha.slotOf_cases g n with hold | hnone | ⟨rfl, f, hf, rfl, hnew⟩
    · exact Or.inl hold
    · exact Or.inr (Or.inl hnone)
    · exact Or.inr (Or.inr ⟨_, hrows f (hfetched f hf).1, hnew⟩)
  · intro g v b hb
    rw [ha.wrapOf] at hb
    split at hb
    · next hg =>
      rw [hg]
      exact hs.wraps _ (latestDek_eq_some hb)
    · exact h.wraps hb
  · intro g n hk hn
    by_cases hg : g = s.name
    · -- 写した group では、行の version は必ず状態の wrap にある
      subst hg
      have hcover : ∀ {v}, (∃ d ∈ s.deks, d.version = v) → wrapOf db c.own s.name v ≠ none := by
        rintro v ⟨d, hd, hv⟩
        rw [ha.wrapOf, if_pos rfl]
        exact fun hnone => latestDek_eq_none.mp hnone d hd hv
      rcases ha.slotOf_cases s.name n with hold | hnone | ⟨-, f, hf, rfl, hnew⟩
      · rw [hold] at hn ⊢
        obtain ⟨r, hr, -⟩ := h.ready hk hn
        exact ⟨r, hr, hcover (hs.versions hk n r hr)⟩
      · rw [hnone] at hn
        exact absurd rfl hn
      · rw [hnew]
        exact ⟨_, rfl, hcover (hfetched f hf).2⟩
    · have hslot : slotOf db g n = slotOf w.sys.mirror g n := by rw [ha.slotOf, if_neg hg]
      rw [hslot] at hn ⊢
      obtain ⟨r, hr, hw⟩ := h.ready hk hn
      exact ⟨r, hr, by rwa [ha.wrapOf, if_neg hg]⟩

theorem Sound.dropped (h : c.Sound w) (hd : Dropped g w.sys.mirror db) :
    c.Sound (withMirror w db) := by
  refine h.remirror (fun g' n => ?_) ?_ ?_
  · rw [hd.slotOf]
    split
    · exact Or.inr (Or.inl rfl)
    · exact Or.inl rfl
  · exact fun hb => h.wraps (hd.wrapOf hb).2
  · intro g' n hk hn
    rw [hd.slotOf] at hn ⊢
    by_cases hg : g' = g
    · rw [if_pos hg] at hn
      exact absurd rfl hn
    · rw [if_neg hg] at hn ⊢
      obtain ⟨r, hr, hw⟩ := h.ready hk hn
      exact ⟨r, hr, by rwa [hd.wrapOf_other hg]⟩

/-- mirror の動きの後にも残る事実。 -/
theorem Knows.survives {touched : Option String} {f : Fact} (hf : f.Survives touched)
    (hs : ∀ g n, touched ≠ some g → slotOf db g n = slotOf w.sys.mirror g n) (h : c.Knows w f) :
    c.Knows (withMirror w db) f := by
  cases f with
  | state s => exact Covers.other h fun n => hs s.name n hf
  | named _ => trivial
  | manifest _ => trivial
  | done _ => trivial
  | _ => exact hf.elim

/-! ## 同期の規則 -/

/-- 読んだ snapshot は、手元の行のどの version の wrap も運ぶ。 -/
theorem covers_snapshot (hlen : c.own.length = 64) (h : c.Sound w) {gid : Nat}
    (hg : groupId w.sys.upstream g = some gid)
    (hread : c.kept g → syncReadAuthorized w.sys.upstream c.own g = some gid) :
    c.Covers w (snapshotGroup w.sys.upstream gid g c.own) := by
  refine ⟨fun d hd => ?_, fun hk n r hr => ?_⟩
  · exact ownWrap_of_mem h.attested.keys hlen hg (mem_deks_snapshot.mp hd).2
  · obtain ⟨gid', value, hg', hseal, -⟩ := (h.rows hr).1
    obtain rfl : gid' = gid := Option.some.inj (hg'.symm.trans hg)
    exact dek_snapshot h.attested.keys (hread hk) hseal.registered

/-- 今の行は、これまで mirror にあったどの行より後に読まれている。 -/
theorem Sound.current (h : c.Sound w) (hr : (slotOf w.sys.upstream g n).2 = some r) :
    c.Row w g n r := by
  refine ⟨h.attested.rows hr, w.time, le_refl _, (h.present g n).symm.trans hr, ?_⟩
  rintro r' (hr' | ⟨i, hi, hr'⟩)
  · obtain ⟨q, hq, hsrc, -⟩ := (h.rows hr').2
    exact ⟨q, hq, hsrc⟩
  · obtain ⟨p, hp, hsrc⟩ := h.past hi hr'
    exact ⟨p, hp.trans hi, hsrc⟩

/-- 行の由来を保つ同期の規則。 -/
def tracing (hlen : c.own.length = 64) : Discipline c.own Timed where
  view := fun w => w.sys.session.link
  put := put
  put_view := fun _ => rfl
  inv := c.Sound
  rely := c.Ahead
  refl := .refl
  trans := .trans
  mayFail := False
  holds := fun f w => c.Knows w f
  stable := fun ha h => Knows.ahead ha h
  mirror_stable := fun h => h.mirror
  quiet := quiet
  named_of_state := fun _ _ => trivial
  read_group := by
    intro group w hi _
    cases hauth : syncReadAuthorized w.sys.session.link.upstream c.own group with
    | none => trivial
    | some gid => exact covers_snapshot hlen hi (syncReadAuthorized_eq_some.mp hauth).1 fun _ => hauth
  authorize := by
    intro s w hi _
    cases hauth : syncReadAuthorized w.sys.session.link.upstream c.own s.name with
    | none => trivial
    | some gid => exact (syncReadAuthorized_eq_some.mp hauth).1
  read_row := by
    intro group gid w name hi hg
    cases hrow : secretDataCurrent w.sys.session.link.upstream gid name with
    | none => trivial
    | some row => exact hi.current (slotOf_snd.mpr ⟨gid, hg, hrow⟩)
  apply := by
    rintro s w rows gid db db' hi hs hrows - - ha ⟨log, rfl⟩
    have hsound : c.Sound (withMirror w db) := hi.applied hs hrows ha
    have hkeep : ∀ f : Fact, f.Survives (some s.name) → c.Knows w f → c.Knows (withMirror w db) f :=
      fun f hf => Knows.survives hf fun g n hg =>
        (ha.slotOf g n).trans (if_neg fun he : g = s.name => hg (congrArg some he.symm))
    obtain ⟨hahead, hsound⟩ := quiet (l := { w.sys.session.link with mirror := db.withAudit log })
      hsound ⟨.refl _, ⟨log, rfl⟩⟩
    exact ⟨hsound, trivial, fun f hf h => (hkeep f hf h).ahead hahead⟩
  drop := by
    intro g w hi _
    have hd := dropGroupLocal_spec w.sys.session.link.mirror g
    refine ⟨hi.dropped hd, trivial, fun f hf h => Knows.survives hf (fun g' n hg => ?_) h⟩
    exact (hd.slotOf g' n).trans (if_neg fun he : g' = g => hg (congrArg some he.symm))
  gc := by
    intro w hi
    refine ⟨hi.remirror (fun g n => Or.inl rfl) hi.wraps hi.ready, fun f hf h => ?_⟩
    exact Knows.survives hf (fun _ _ _ => rfl) h
  stale := fun _ _ _ => trivial
  absent := fun _ _ _ _ => trivial

/-! ## 系の一歩 -/

/-- 居場所ごとの、手続きと manifest の見通し。 -/
def Phased (hlen : c.own.length = 64) (w : Timed) : Prop :=
  match w.sys.session.phase with
  | .working _ rest => (tracing hlen).Safe (fun _ _ => True) rest w
  | .manifest _ stash => ∃ st snaps, w.sys.stream = some st ∧
      Underway stash snaps w.sys.wire st.task ∧ ∀ s ∈ snaps, c.Covers w s
  | _ => True

structure Inv (hlen : c.own.length = 64) (w : Timed) : Prop where
  sound : c.Sound w
  phased : Phased hlen w

variable {hlen : c.own.length = 64} {l l' : Link Db} {phase phase' : Phase Db}
  {stream : Option Stream} {wire wire' : List SyncMessage} {t : Nat}

/-- session の居場所と `wire` は、行の由来に関わらない。 -/
theorem Sound.rephase (h : c.Sound ⟨⟨⟨l, phase⟩, stream, wire⟩, t⟩) :
    c.Sound ⟨⟨⟨l, phase'⟩, stream, wire'⟩, t⟩ :=
  ⟨h.attested, h.present, h.scheduled, h.rows, h.wraps, h.past, h.ready⟩

theorem ahead_rephase :
    c.Ahead ⟨⟨⟨l, phase⟩, stream, wire⟩, t⟩ ⟨⟨⟨l, phase'⟩, stream, wire'⟩, t⟩ :=
  ⟨.refl _, .refl _, le_refl _, id⟩

/-- audit、event と接続の印だけの動き。 -/
theorem quiet_rephase (h : c.Sound ⟨⟨⟨l, phase⟩, stream, wire⟩, t⟩) (hs : l.Same l') :
    c.Ahead ⟨⟨⟨l, phase⟩, stream, wire⟩, t⟩ ⟨⟨⟨l', phase'⟩, stream, wire'⟩, t⟩ ∧
      c.Sound ⟨⟨⟨l', phase'⟩, stream, wire'⟩, t⟩ := by
  obtain ⟨ha, hsound⟩ := quiet h hs
  exact ⟨ha.trans ahead_rephase, hsound.rephase⟩

/-- 環境の歩みでは、居場所ごとの見通しも残る。 -/
theorem Phased.ahead (h : Phased hlen ⟨⟨⟨l, phase⟩, stream, wire⟩, t⟩)
    (ha : c.Ahead ⟨⟨⟨l, phase⟩, stream, wire⟩, t⟩ w') (hphase : w'.sys.session.phase = phase)
    (hwire : ∀ ok stash, phase = .manifest ok stash → ∀ st snaps, stream = some st →
      Underway stash snaps wire st.task → (∀ s ∈ snaps, c.Covers w' s) →
      ∃ st' snaps', w'.sys.stream = some st' ∧ Underway stash snaps' w'.sys.wire st'.task ∧
        ∀ s ∈ snaps', c.Covers w' s) : Phased hlen w' := by
  unfold Phased at h ⊢
  rw [hphase]
  cases phase with
  | working job rest => exact Setting.Safe.stable h ha
  | manifest ok stash =>
    obtain ⟨st, snaps, hst, hu, hc⟩ := h
    exact hwire ok stash rfl st snaps hst hu fun s hs => Knows.ahead (f := .state s) ha (hc s hs)
  | _ => trivial

/-- 上流の stream の一歩。 -/
theorem Inv.served {st st' : Stream} {sent : List SyncMessage}
    (h : Inv hlen ⟨⟨⟨l, phase⟩, some st, wire⟩, t⟩) (hs : Served c.own l.upstream st st' sent db) :
    Inv hlen ⟨⟨⟨{ l with upstream := db }, phase⟩, some st', wire ++ sent⟩, t⟩ := by
  have hsame := hs.same
  have ha : c.Ahead ⟨⟨⟨l, phase⟩, some st, wire⟩, t⟩
      ⟨⟨⟨{ l with upstream := db }, phase⟩, some st', wire ++ sent⟩, t⟩ :=
    ⟨hsame.stable, .refl _, le_refl _, id⟩
  have hold := (h.sound.scheduled st rfl).2
  refine ⟨h.sound.ahead ha (hsame.attested h.sound.attested) (fun g n => ?_) h.sound.past ?_, ?_⟩
  · exact (congrArg Prod.snd (hsame.slotOf g n)).trans (h.sound.present g n)
  · intro u hu
    cases hu
    refine ⟨hs.hosting, fun cached todo ht => ?_⟩
    cases hs with
    | @admitted _ scope _ hscope =>
      cases ht
      intro x hx
      have hauth := (mem_scopeOf hscope).mp hx
      exact ⟨(syncReadAuthorized_eq_some.mp hauth).1, fun _ => hauth⟩
    | snapshot =>
      cases ht
      exact fun x hx => hold _ _ rfl x (List.mem_cons_of_mem _ hx)
    | _ => cases ht
  · refine h.phased.ahead ha rfl ?_
    rintro ok stash rfl u snaps hu hund hcov
    cases hu
    obtain ⟨snaps', hund', hnew⟩ := hund.served hs
    refine ⟨st', snaps', rfl, hund', ?_⟩
    rcases hnew with rfl | ⟨cached, gid, name, todo, htask, rfl⟩
    · exact hcov
    · intro s hs'
      rcases List.mem_append.mp hs' with hs' | hs'
      · exact hcov s hs'
      · obtain ⟨hg, hread⟩ := hold _ _ htask (gid, name) List.mem_cons_self
        rw [List.mem_singleton.mp hs']
        exact Knows.ahead (f := .state _) ha (covers_snapshot hlen h.sound hg hread)

/-- 要求のほかの一歩は、時刻を止めたまま不変条件を保つ。 -/
theorem Inv.moves {s s' : System} (hm : Moves c.prim c.own s s') (h : Inv hlen ⟨s, t⟩) :
    Inv hlen ⟨s', t⟩ := by
  cases hm with
  | served hs => exact h.served hs
  | idle hl hup =>
    obtain ⟨ha, hsound⟩ := quiet_rephase h.sound hl
    refine ⟨hsound, h.phased.ahead ha rfl ?_⟩
    exact fun ok stash _ st snaps hst hu hc => ⟨st, snaps, hst, hu, hc⟩
  | opened =>
    refine ⟨⟨h.sound.attested, h.sound.present, ?_, h.sound.rows, h.sound.wraps, h.sound.past,
      h.sound.ready⟩, _, [], rfl, .hello, fun _ hs => absurd hs List.not_mem_nil⟩
    intro st hst
    cases hst
    exact ⟨hosting_accept, fun _ _ ht => nomatch ht⟩
  | greeted hmerge hl =>
    obtain ⟨st, snaps, hst, hu, hc⟩ := h.phased
    obtain ⟨ha, hsound⟩ := quiet_rephase h.sound (connected_same hl).1
    exact ⟨hsound, st, snaps, hst, hu.greeted hmerge,
      fun s hs => Knows.ahead (f := .state s) ha (hc s hs)⟩
  | listed hl =>
    obtain ⟨st, snaps, hst, hu, hc⟩ := h.phased
    obtain ⟨rfl, hnd⟩ := hu.complete
    obtain ⟨ha, hsound⟩ := quiet_rephase h.sound (connected_same hl).1
    refine ⟨hsound, Setting.Safe.mono (Discipline.safe_fullResync (D := tracing hlen) hnd hsound
      trivial fun s hs => ?_) fun _ _ _ _ => trivial⟩
    exact Knows.ahead (f := .state s) ha (hc s hs)
  | pushed =>
    refine ⟨h.sound.rephase, Setting.Safe.mono (Discipline.safe_syncGroupViaFetch
      (D := tracing hlen) (Γ := fun _ => False) (fun _ hf => hf.elim) h.sound.rephase
      (fun _ hf => hf.elim) trivial) fun _ _ _ _ => trivial⟩
  | acted =>
    obtain ⟨hsound, hsafe⟩ := (h.phased _ (.refl _) h.sound).resolve_left id
    exact ⟨hsound.rephase, Setting.Safe.stable hsafe ahead_rephase⟩
  | finished => exact ⟨h.sound.rephase, trivial⟩
  | @left l₀ l₁ phase₀ phase₁ stream wire hl _ hp =>
    have hs : c.Sound ⟨⟨⟨l₁, phase₁⟩, stream, wire⟩, t⟩ := (quiet_rephase h.sound hl).2
    refine ⟨⟨hs.attested, hs.present, fun st hst => ?_, hs.rows, hs.wraps, hs.past, hs.ready⟩, ?_⟩
    · cases hst
    rcases hp with rfl | rfl <;> trivial

/-! ### 時刻の進み -/

section Tick

variable {s s' : System}

/-- mirror に触れずに次の時刻の系になる。 -/
theorem Ahead.tick (hs : c.state (t + 1) = s') (hm : s'.mirror = s.mirror)
    (hup : Stable c.prim s.upstream s'.upstream) : c.Ahead ⟨s, t⟩ ⟨s', t + 1⟩ := by
  have hmirror : SameRows s.mirror s'.mirror := hm ▸ .refl _
  refine ⟨hup, hmirror, Nat.le_succ t, ?_⟩
  rintro g n r (hr | ⟨i, hi, hr⟩)
  · exact Or.inl (hm ▸ hr)
  · by_cases hit : i = t + 1
    · rw [hit, hs, hm] at hr
      exact Or.inl hr
    · exact Or.inr ⟨i, Nat.le_of_lt_succ (lt_of_le_of_ne hi hit), hr⟩

theorem Sound.tick (h : c.Sound ⟨s, t⟩) (hs : c.state (t + 1) = s') (hm : s'.mirror = s.mirror)
    (hup : Stable c.prim s.upstream s'.upstream)
    (hatt : Attested c.prim c.inner c.wrote s'.upstream) (hsched : c.Scheduled ⟨s', t + 1⟩) :
    c.Sound ⟨s', t + 1⟩ := by
  refine h.ahead (.tick hs hm hup) hatt (fun g n => ?_) ?_ hsched
  · unfold source
    rw [hs]
  · intro i g n r hi hr
    by_cases hit : i = t + 1
    · rw [hit, hs, hm] at hr
      obtain ⟨q, hq, hsrc, -⟩ := (h.rows hr).2
      exact ⟨q, hit ▸ hq.trans (Nat.le_succ t), hsrc⟩
    · exact h.past (Nat.le_of_lt_succ (lt_of_le_of_ne hi hit)) hr

end Tick

/-- 一歩を終えると、その系が次の時刻の系になる。 -/
theorem Inv.pass {s : System} (h : Inv hlen ⟨s, t⟩) (hs : c.state (t + 1) = s) :
    Inv hlen ⟨s, t + 1⟩ := by
  have hsound := h.sound.tick hs rfl (.refl _) h.sound.attested h.sound.scheduled
  refine ⟨hsound, h.phased.ahead (.tick hs rfl (.refl _)) rfl ?_⟩
  exact fun ok stash _ st snaps hst hu hc => ⟨st, snaps, hst, hu, hc⟩

/-- 要求は上流だけを進める。次の時刻の上流が、要求の後の store である。 -/
theorem Inv.request (laws : c.prim.Lawful) {s : System} (h : Inv hlen ⟨s, t⟩) {amb : Ambient}
    {remote : String} {req : Request} (hs : c.state (t + 1) = s.handle c.prim c.inner amb remote req)
    (hw : ∀ g n value e row, req = .put g n value e →
      (Bunker.handle c.prim c.inner amb s.upstream remote req).response = .version (e.toNat + 1) →
      c.source (t + 1) g n = some row → row.nonce = amb.nonce.bytes → c.wrote g n row value)
    (hkept : ∀ g, c.kept g → syncReadAuthorized s.upstream c.own g ≠ none →
      syncReadAuthorized (c.state (t + 1)).upstream c.own g ≠ none) :
    Inv hlen ⟨s.handle c.prim c.inner amb remote req, t + 1⟩ := by
  have hstable := h.sound.attested.stable_handle laws amb remote req
  refine ⟨h.sound.tick hs rfl hstable (h.sound.attested.handle laws remote req ?_) ?_, ?_⟩
  · intro g n value e row hreq hresp hrow hnonce
    refine hw g n value e row hreq hresp ?_ hnonce
    unfold source
    rw [hs]
    exact hrow
  · intro st hst
    obtain ⟨u, hu, rfl⟩ := Option.map_eq_some_iff.mp hst
    obtain ⟨hhost, hsched⟩ := h.sound.scheduled u hu
    refine ⟨hhost.publish _, fun cached todo ht x hx => ?_⟩
    obtain ⟨hg, hread⟩ := hsched cached todo ht x hx
    refine ⟨hstable.groupId hg, fun hk => ?_⟩
    -- READ を失わないので、認可も続く
    have hauth := hkept x.2 hk (by rw [hread hk]; exact Option.some_ne_none _)
    rw [hs] at hauth
    obtain ⟨gid, hgid⟩ := Option.ne_none_iff_exists'.mp hauth
    have hsame : gid = x.1 := Option.some.inj
      ((syncReadAuthorized_eq_some.mp hgid).1.symm.trans (hstable.groupId hg))
    exact hsame ▸ hgid
  · refine h.phased.ahead (.tick hs rfl hstable) rfl ?_
    intro ok stash _ st snaps hst hu hc
    exact ⟨_, snaps, congrArg (Option.map _) hst, hu, hc⟩

/-! ## 実行 -/

/-- 実行 `acts` の記録。 -/
def ofRun (prim : Primitives) (inner : Inner) (own : String) (s₀ : System) (acts : List System.Act)
    (kept : String → Prop) : Chronicle where
  prim := prim
  inner := inner
  own := own
  wrote := wroteIn prim inner own s₀ acts
  state := fun t => s₀.exec prim inner own (acts.take t)
  kept := kept

/-- **どの実行のどの時刻でも、行の由来と wrap は揃っている。** -/
theorem inv_run {prim : Primitives} {inner : Inner} {own : String} (laws : prim.Lawful)
    (hown : own.length = 64) {db₀ : Db} (acts : List System.Act) (kept : String → Prop)
    (hkept : ∀ t g, kept g →
      syncReadAuthorized ((System.start db₀).exec prim inner own (acts.take t)).upstream own g ≠ none →
      syncReadAuthorized ((System.start db₀).exec prim inner own (acts.take (t + 1))).upstream own g ≠ none)
    (hdb : Attested prim inner (wroteIn prim inner own (System.start db₀) acts) db₀) (ht : t ≤ acts.length) :
    Inv (c := ofRun prim inner own (System.start db₀) acts kept) hown
      ⟨(System.start db₀).exec prim inner own (acts.take t), t⟩ := by
  induction t with
  | zero =>
    refine ⟨?_, trivial⟩
    constructor
    case attested => exact hdb
    case present => exact fun _ _ => rfl
    case scheduled => exact fun _ h => nomatch h
    case rows => exact fun h => nomatch h
    case wraps => exact fun h => nomatch h
    case past =>
      intro i g n r hi hr
      obtain rfl : i = 0 := Nat.le_zero.mp hi
      cases hr
    case ready => exact fun _ h => absurd rfl h
  | succ t ih =>
    have hlt : t < acts.length := ht
    have hact : acts[t]? = some acts[t] := List.getElem?_eq_getElem hlt
    have hi := ih (Nat.le_of_lt hlt)
    have hnext := @exec_take_succ prim inner own (System.start db₀) acts t _ hact
    by_cases hreq : ∃ amb remote req, acts[t] = .request amb remote req
    · obtain ⟨amb, remote, req, hreq⟩ := hreq
      rw [hreq] at hnext hact
      rw [hnext]
      refine hi.request laws hnext ?_ fun g hk => hkept t g hk
      rintro g n value e row rfl hresp hrow hnonce
      exact ⟨t, amb, remote, e, hact, hresp, hrow, hnonce⟩
    · have hhost := fun st hst => (hi.sound.scheduled st hst).1
      refine Inv.pass ?_ rfl
      rw [hnext]
      exact hi.moves (moves_step _ hhost fun amb remote req he => hreq ⟨amb, remote, req, he⟩)

/-! ## 読み手から見えるもの -/

/-- replica の Get は、行を自分の wrap で開く。 -/
theorem get_eq {prim : Primitives} {own : String} (key : AgeIdentity) {mirror : Db} {b : Bytes}
    (hr : (slotOf mirror g n).2 = some r) (hb : wrapOf mirror own g r.dekVersion = some b) :
    Replica.get prim own key mirror g n =
      match (unwrapDek prim b key).bind fun dek => decryptSecret prim dek
          (secretAad g n r.version r.dekVersion) r.nonce r.ciphertext with
      | none => .error "secret decryption failed (wrong key or tampered data)"
      | some plaintext => .ok plaintext := by
  obtain ⟨gm, hg, hrow⟩ := slotOf_snd.mp hr
  obtain ⟨gm', hg', hw⟩ := wrapOf_eq_some.mp hb
  obtain rfl : gm = gm' := Option.some.inj (hg.symm.trans hg')
  unfold Replica.get
  rw [hg]
  dsimp only
  rw [secretCurrent_eq, hrow, Option.map_some]
  dsimp only
  rewrite [dekWrap_eq_some.mpr hw]
  rfl

/-- 行の値は、wrap を開けたなら必ず取り出せる。 -/
theorem decrypt_genuine {prim : Primitives} (laws : prim.Lawful) {inner : Inner} {wrote : Writing}
    {up : Db} (ha : Attested prim inner wrote up) {own : String} {b : Bytes}
    (hr : Genuine prim wrote up g n r) (hb : OwnWrap prim own up g r.dekVersion b) :
    ∃ value, wrote g n r value ∧ ∀ key dek, unwrapDek prim b key = some dek →
      decryptSecret prim dek (secretAad g n r.version r.dekVersion) r.nonce r.ciphertext =
        some value := by
  obtain ⟨gid, value, hg, ⟨hreg, dek, nonce, hdek, hn, hc⟩, hw⟩ := hr
  obtain ⟨gid', dek', seed, recipient, hg', hdek', -, rfl⟩ := hb
  obtain rfl : gid' = gid := Option.some.inj (hg'.symm.trans hg)
  refine ⟨value, hw, fun key d hd => ?_⟩
  rw [eq_of_unwrapDek laws hd, DekOf.unique laws ha hdek' ⟨hreg, hdek⟩, hn, hc]
  exact decryptSecret_encryptSecret laws nonce dek _ value

/-- `get` が返す値は、行に書かれた値である。 -/
theorem Sound.get_ok (laws : c.prim.Lawful) (h : c.Sound w) {key : AgeIdentity} {value : Bytes}
    (hget : Replica.get c.prim c.own key w.sys.mirror g n = .ok value) :
    ∃ r, c.wrote g n r value := by
  have hheld : ∃ r, (slotOf w.sys.mirror g n).2 = some r ∧
      ∃ b, wrapOf w.sys.mirror c.own g r.dekVersion = some b := by
    unfold Replica.get at hget
    cases hg : groupId w.sys.mirror g with
    | none =>
      rw [hg] at hget
      cases hget
    | some gm =>
      rw [hg] at hget
      dsimp only at hget
      rw [secretCurrent_eq] at hget
      cases hrow : secretDataCurrent w.sys.mirror gm n with
      | none =>
        rw [hrow] at hget
        cases hget
      | some r =>
        rw [hrow] at hget
        dsimp only [Option.map_some] at hget
        cases hw : dekWrap w.sys.mirror gm r.dekVersion c.own with
        | none =>
          rw [hw] at hget
          cases hget
        | some b =>
          exact ⟨r, slotOf_snd.mpr ⟨gm, hg, hrow⟩, b,
            wrapOf_eq_some.mpr ⟨gm, hg, dekWrap_eq_some.mp hw⟩⟩
  obtain ⟨r, hr, b, hb⟩ := hheld
  obtain ⟨value', hw, hdec⟩ := decrypt_genuine laws h.attested (h.rows hr).1 (h.wraps hb)
  rw [get_eq key hr hb] at hget
  cases hu : unwrapDek c.prim b key with
  | none =>
    rw [hu] at hget
    cases hget
  | some dek =>
    rw [hu, Option.bind_some, hdec key dek hu] at hget
    cases hget
    exact ⟨r, hw⟩

/-- READ を失わない group の一覧に見える名前は、復号できる。 -/
theorem Sound.get_listed (laws : c.prim.Lawful) (h : c.Sound w) {key : AgeIdentity}
    (hkey : ∀ r, recipientForEndpointHex c.prim c.own = some r → r = c.prim.toPublic key)
    (hk : c.kept g) {names : List (String × Nat)} {v : Nat}
    (hlist : Replica.list w.sys.mirror g = .ok names) (hn : (n, v) ∈ names) :
    ∃ value, Replica.get c.prim c.own key w.sys.mirror g n = .ok value := by
  have hslot : (slotOf w.sys.mirror g n).1 ≠ none := by
    unfold Replica.list at hlist
    cases hg : groupId w.sys.mirror g with
    | none =>
      rw [hg] at hlist
      cases hlist
    | some gm =>
      rw [hg] at hlist
      cases hlist
      rw [slotOf_eq hg]
      show secretVersion w.sys.mirror gm n ≠ none
      rw [mem_listSecrets.mp hn]
      exact Option.some_ne_none v
  obtain ⟨r, hr, hw⟩ := h.ready hk hslot
  obtain ⟨b, hb⟩ := Option.ne_none_iff_exists'.mp hw
  obtain ⟨value, -, hdec⟩ := decrypt_genuine laws h.attested (h.rows hr).1 (h.wraps hb)
  obtain ⟨gid, dek, seed, recipient, -, -, hrec, hwrap⟩ := h.wraps hb
  have hopen : unwrapDek c.prim b key = some dek := by
    rw [hwrap, hkey recipient hrec]
    exact unwrapDek_wrapDek laws seed dek key
  refine ⟨value, ?_⟩
  rw [get_eq key hr hb, hopen, Option.bind_some, hdec key dek hopen]

end Chronicle

section Run

variable {prim : Primitives} {inner : Inner} {own : String} {op backup endpoint name : String}
  {db₀ : Db} {key : AgeIdentity}

/-- **replica は、上流に書かれなかった値を返さず、上流の時間を遡らない。**
`get` が返す値は、ある成功した Put がその `(group, name)` に書いた値である。
mirror がある時刻に行 `r₁` を、後の時刻に行 `r₂` を持つなら、`r₂` が上流の今の行だった時刻は、
`r₁` がそうだった時刻より前ではない。要求、stream、手続き、失敗と再接続がどう割り込んでもよい。 -/
theorem mirror_follows_upstream (laws : prim.Lawful) (hlen : endpoint.length = 64)
    (hinit : Node.init op backup endpoint name = some db₀)
    (hnew : Bunker.new prim db₀ key = some inner) (hown : own.length = 64) (acts : List System.Act)
    (g n : String) :
    (∀ ageKey value,
      get prim own ageKey ((System.start db₀).exec prim inner own acts).mirror g n = .ok value →
      ∃ i amb remote e, acts[i]? = some (.request amb remote (.put g n value e)) ∧
        (Bunker.handle prim inner amb
          ((System.start db₀).exec prim inner own (acts.take i)).upstream remote
          (.put g n value e)).response = .version (e.toNat + 1)) ∧
    ∀ i r₁ r₂, i ≤ acts.length →
      (slotOf ((System.start db₀).exec prim inner own (acts.take i)).mirror g n).2 = some r₁ →
      (slotOf ((System.start db₀).exec prim inner own acts).mirror g n).2 = some r₂ →
      ∃ p q, p ≤ q ∧ q ≤ acts.length ∧
        (slotOf ((System.start db₀).exec prim inner own (acts.take p)).upstream g n).2 = some r₁ ∧
        (slotOf ((System.start db₀).exec prim inner own (acts.take q)).upstream g n).2 = some r₂ := by
  have hinv := Chronicle.inv_run (t := acts.length) laws hown acts (fun _ => False)
    (fun _ _ hk => hk.elim) (Attested.init laws hlen hinit hnew) (le_refl _)
  rw [List.take_length] at hinv
  refine ⟨fun ageKey value hget => ?_, fun i r₁ r₂ hi h₁ h₂ => ?_⟩
  · obtain ⟨r, i, amb, remote, e, hact, hresp, -⟩ := hinv.sound.get_ok laws hget
    exact ⟨i, amb, remote, e, hact, hresp⟩
  · obtain ⟨q, hq, hsrc, hlate⟩ := (hinv.sound.rows h₂).2
    obtain ⟨p, hp, hsrc'⟩ := hlate r₁ (Or.inr ⟨i, hi, h₁⟩)
    exact ⟨p, q, hp, hq, hsrc', hsrc⟩

/-- bob に READ を与えた group に書き、bob の replica が manifest を写し終えるまで。 -/
def sampleRun : List System.Act :=
  (sampleCalls [('a', .createGroup "g"), ('a', .addIdentity "bob" (samplePeer 'b') false),
    ('a', .grant "g" "bob" permRead), ('a', .put "g" "n" [7] 0)]).filterMap (fun
      | (.handle _ remote req, amb) => some (.request amb remote req)
      | _ => none)
    ++ [.connect] ++ List.replicate 4 (.serve .proceed) ++ List.replicate 3 .receive
    ++ List.replicate 11 .advance

theorem new_sampleDb : Bunker.new plain sampleDb ⟨"o"⟩ = some sampleInner := by decide +kernel

theorem get_sampleRun : get plain (samplePeer 'b') ⟨"b"⟩
    ((System.start sampleDb).exec plain sampleInner (samplePeer 'b') sampleRun).mirror "g" "n" =
      .ok [7] := by decide +kernel

theorem mirror_follows_upstream_sample :
    ∃ i amb remote e, sampleRun[i]? = some (.request amb remote (.put "g" "n" [7] e)) ∧
      (Bunker.handle plain sampleInner amb
        ((System.start sampleDb).exec plain sampleInner (samplePeer 'b')
          (sampleRun.take i)).upstream remote (.put "g" "n" [7] e)).response =
        .version (e.toNat + 1) :=
  (mirror_follows_upstream plain_lawful (by decide) init_sampleDb new_sampleDb (by decide) sampleRun
    "g" "n").1 ⟨"b"⟩ [7] get_sampleRun

/-- **READ を失わない group では、一覧に見える名前はいつでも復号できる。**
鍵の回転や書き込みが snapshot と取り寄せの間のどこに挟まっても、読めない行が残ることはない。 -/
theorem listed_always_readable (laws : prim.Lawful) (hlen : endpoint.length = 64)
    (hinit : Node.init op backup endpoint name = some db₀)
    (hnew : Bunker.new prim db₀ key = some inner) (hown : own.length = 64) (acts : List System.Act)
    {ageKey : AgeIdentity}
    (hkey : ∀ r, recipientForEndpointHex prim own = some r → r = prim.toPublic ageKey) {g : String}
    (hkept : ∀ t,
      syncReadAuthorized ((System.start db₀).exec prim inner own (acts.take t)).upstream own g ≠ none →
      syncReadAuthorized ((System.start db₀).exec prim inner own (acts.take (t + 1))).upstream own g ≠
        none)
    {names : List (String × Nat)}
    (hlist : list ((System.start db₀).exec prim inner own acts).mirror g = .ok names) :
    ∀ x ∈ names, ∃ value,
      get prim own ageKey ((System.start db₀).exec prim inner own acts).mirror g x.1 = .ok value := by
  have hinv := Chronicle.inv_run (t := acts.length) laws hown acts (fun g' => g' = g)
    (fun t g' hk => by rw [hk]; exact hkept t) (Attested.init laws hlen hinit hnew) (le_refl _)
  rw [List.take_length] at hinv
  exact fun x hx => hinv.sound.get_listed laws hkey rfl hlist hx

/-- bob の READ は、与えられてから失われない。 -/
theorem kept_sampleRun (t : Nat) :
    syncReadAuthorized ((System.start sampleDb).exec plain sampleInner (samplePeer 'b')
        (sampleRun.take t)).upstream (samplePeer 'b') "g" ≠ none →
      syncReadAuthorized ((System.start sampleDb).exec plain sampleInner (samplePeer 'b')
        (sampleRun.take (t + 1))).upstream (samplePeer 'b') "g" ≠ none := by
  have hsmall : ∀ t < 23, syncReadAuthorized ((System.start sampleDb).exec plain sampleInner
      (samplePeer 'b') (sampleRun.take t)).upstream (samplePeer 'b') "g" ≠ none →
      syncReadAuthorized ((System.start sampleDb).exec plain sampleInner (samplePeer 'b')
        (sampleRun.take (t + 1))).upstream (samplePeer 'b') "g" ≠ none := by decide +kernel
  by_cases ht : t < 23
  · exact hsmall t ht
  · have hlen : sampleRun.length = 23 := rfl
    rw [List.take_of_length_le (by omega), List.take_of_length_le (by omega)]
    exact id

theorem listed_always_readable_sample :
    list ((System.start sampleDb).exec plain sampleInner (samplePeer 'b') sampleRun).mirror "g" =
        .ok [("n", 1)] ∧
      ∃ value, get plain (samplePeer 'b') ⟨"b"⟩
        ((System.start sampleDb).exec plain sampleInner (samplePeer 'b') sampleRun).mirror "g" "n" =
          .ok value := by
  have hlist : list ((System.start sampleDb).exec plain sampleInner (samplePeer 'b')
      sampleRun).mirror "g" = .ok [("n", 1)] := by decide +kernel
  have hkey : recipientForEndpointHex plain (samplePeer 'b') = some ⟨"b"⟩ := by decide +kernel
  exact ⟨hlist, listed_always_readable plain_lawful (by decide) init_sampleDb new_sampleDb (by decide)
    sampleRun (fun r h => Option.some.inj (h.symm.trans hkey)) kept_sampleRun hlist ("n", 1)
    List.mem_cons_self⟩

end Run

end Replica

end SecretBunker
