import SecretBunker.Operator.History

/-!
# Retain は作った Secret を残す

CR を指す ownerReference が残る Secret は、CR が消えた後に GC に消される。`cleanup_bunker_secret` が
所有を外すのは spec の言う target だけで、status に残る前の target は見ない。改名や打ち切りが書いた Secret
の名前を失わせず、前の target を所有したまま片付けを始めない経過では、所有された Secret はつねに今の
target か、status に残る target か、走っている reconcile の target であり、Cleanup の腕の後には一つも
残らない。
-/

namespace SecretBunker

open Interleaving Ordered

namespace Operator

variable {cfg : Config} {name uid : String} {held : Option String}

/-! ## 所有 -/

variable {c : BunkerSecret} {data : SortedMap String Bytes} {w w' : World} {n : String}
  {P : World → Prop}

theorem ownedBy_read (hu : c.uid = some uid) (s : StoredSecret) (nameSpace n : String) :
    ownedBy (s.read nameSpace n) c =
      (ownerOf uid (some s)).any fun f => f.value.kind == "BunkerSecret" := by
  unfold ownedBy
  rw [hu]
  show ((Fields.read s.ownerReferences).get? uid).any _ = (s.ownerReferences.get? uid).any _
  unfold Fields.read
  rw [SortedMap.get?_filterMap]
  cases s.ownerReferences.get? uid <;> rfl

theorem ownerOf_apply {prim : Primitives} {desired : K8sSecret} (hu : c.uid = some uid)
    (h : buildSecret prim c data = some desired) (stored : Option StoredSecret) :
    ∃ f, ownerOf uid (some (StoredSecret.apply stored desired)) = some f ∧
      f.value.kind = "BunkerSecret" := by
  unfold buildSecret at h
  rw [hu] at h
  cases h
  refine ⟨_, SortedMap.get?_insert _ uid uid _ |>.trans (if_pos rfl), rfl⟩

theorem name_buildSecret {prim : Primitives} {desired : K8sSecret}
    (h : buildSecret prim c data = some desired) : desired.name = c.targetName := by
  obtain ⟨u, -, rfl⟩ := Option.map_eq_some_iff.mp h
  rfl

variable (name uid) in
/-- CR を指す Secret は、今の target か、status に残る target か、走っている Apply の腕の target `held`
である。 -/
def Traced (held : Option String) (w : World) : Prop :=
  ∀ cr, w.crs name = some cr → cr.name = name ∧ cr.uid = some uid ∧
    ∀ n f, ownerOf uid (w.secrets n) = some f → f.value.kind = "BunkerSecret" ∧
      (n = cr.targetName ∨ cr.recordedTarget = some n ∨ held = some n)

variable (name uid) in
/-- reconcile の走る間に動いてよい幅。spec は動いてよい。 -/
def Drifts (w w' : World) : Prop :=
  (∀ cr, w.crs name = some cr → ∃ cr', w'.crs name = some cr' ∧ cr'.status = cr.status) ∧
  ∀ n f, ownerOf uid (w'.secrets n) = some f → ownerOf uid (w.secrets n) = some f

theorem recordedTarget_congr {c' : BunkerSecret} (h : c'.status = c.status) :
    c'.recordedTarget = c.recordedTarget := by
  unfold BunkerSecret.recordedTarget
  rw [h]

theorem Drifts.refl (w : World) : Drifts name uid w w :=
  ⟨fun cr h => ⟨cr, h, rfl⟩, fun _ _ h => h⟩

theorem Drifts.trans {w₁ w₂ w₃ : World} (h : Drifts name uid w₁ w₂) (h' : Drifts name uid w₂ w₃) :
    Drifts name uid w₁ w₃ := by
  refine ⟨fun cr hcr => ?_, fun n f hf => h.2 n f (h'.2 n f hf)⟩
  obtain ⟨cr₂, h₂, hs₂⟩ := h.1 cr hcr
  obtain ⟨cr₃, h₃, hs₃⟩ := h'.1 cr₂ h₂
  exact ⟨cr₃, h₃, hs₃.trans hs₂⟩

variable (name uid) in
/-- 打ち切られうる reconcile の世界。 -/
def tracing (held : Option String) : Setting World World where
  view := id
  put := fun _ w => w
  put_view := id_eq
  inv := Traced name uid held
  rely := Drifts name uid
  refl := .refl
  trans := .trans
  mayFail := True

variable (name) in
/-- 手続きの受け取った CR は、status の残りが今の CR と同じである。 -/
def Current (c : BunkerSecret) (w : World) : Prop :=
  ∃ cr, w.crs name = some cr ∧ cr.status = c.status

variable (uid) in
/-- 前の target は片付いている。 -/
def Retired (c : BunkerSecret) (w : World) : Prop :=
  ∀ prev, c.recordedTarget = some prev → prev ≠ c.targetName → ownerOf uid (w.secrets prev) = none

theorem ownerOf_eq_none_of_drifts (h : Drifts name uid w w')
    (hn : ownerOf uid (w.secrets n) = none) : ownerOf uid (w'.secrets n) = none := by
  cases hf : ownerOf uid (w'.secrets n) with
  | none => rfl
  | some f => rw [h.2 n f hf] at hn; cases hn

theorem stableAt_current (c : BunkerSecret) : (tracing name uid held).StableAt (Current name c) := by
  rintro w w' hd ⟨cr, hcr, hs⟩
  obtain ⟨cr', hcr', hs'⟩ := hd.1 cr hcr
  exact ⟨cr', hcr', hs'.trans hs⟩

theorem stableAt_retired (c : BunkerSecret) : (tracing name uid held).StableAt (Retired uid c) :=
  fun _ _ hd h prev hp hne => ownerOf_eq_none_of_drifts hd (h prev hp hne)

/-! ## 動作 -/

theorem traced_congr (hcrs : w'.crs = w.crs) (hsec : w'.secrets = w.secrets)
    (h : Traced name uid held w) : Traced name uid held w' := by
  unfold Traced
  rw [hcrs, hsec]
  exact h

theorem drifts_congr (hcrs : w'.crs = w.crs) (hsec : w'.secrets = w.secrets) :
    Drifts name uid w w' := by
  unfold Drifts
  rw [hcrs, hsec]
  exact Drifts.refl w

/-- CR にも Secret にも触れない手続き。 -/
theorem safe_of_keeps {α : Type} {p : Prog World α} (h : p.Keeps fun w => (w.crs, w.secrets))
    (hs : (tracing name uid held).StableAt P) (hw : P w) :
    (tracing name uid held).Safe (fun _ => P) p w := by
  refine Setting.Safe.of_keeps h trivial hs (fun v update hi hP hsame => ?_) hw
  obtain ⟨hcrs, hsec⟩ := Prod.mk.inj hsame
  exact ⟨traced_congr hcrs hsec hi, hs v _ (drifts_congr hcrs hsec) hP⟩

/-- status を書いた後も、所有された Secret はたどれる。 -/
theorem traced_patch {cr : BunkerSecret} {status : BunkerSecretStatus}
    (h : Traced name uid held w) (hcr : w.crs name = some cr) (hs : cr.status = c.status)
    (hcover : status.targetSecretName = c.recordedTarget ∨
      status.targetSecretName = some c.targetName ∧ Retired uid c w) (trace : List Entry) :
    Traced name uid held { w with
      crs := Function.update w.crs name (some { cr with status := some status }), trace } := by
  obtain ⟨hname, huid, howned⟩ := h cr hcr
  intro cr' hcr'
  dsimp only at hcr'
  rw [Function.update_self] at hcr'
  cases hcr'
  refine ⟨hname, huid, fun n f hf => ?_⟩
  obtain ⟨hkind, hn⟩ := howned n f hf
  refine ⟨hkind, hn.imp id (Or.imp (fun hn => ?_) id)⟩
  show status.targetSecretName = some n
  rw [recordedTarget_congr hs] at hn
  rcases hcover with hsame | ⟨hnew, hret⟩
  · exact hsame.trans hn
  · by_cases hne : n = c.targetName
    · rw [hnew, hne]
    · rw [hret n hn hne] at hf
      cases hf

theorem safe_patchStatus {status : BunkerSecretStatus} (hname : c.name = name)
    (hc : Current name c w) (hcover : status.targetSecretName = c.recordedTarget ∨
      status.targetSecretName = some c.targetName ∧ Retired uid c w) :
    (tracing name uid held).Safe (fun _ _ => True) (patchStatus c status) w := by
  unfold patchStatus
  split
  · exact safe_of_keeps (.atomic fun _ => rfl) (fun _ _ _ _ => trivial) trivial
  · refine Setting.Safe.attempt (fun _ _ _ _ _ => trivial) (fun _ _ _ _ => trivial) ?_
    intro v _ v' hv hi hstep
    obtain ⟨stored, hstored, he⟩ := Option.map_eq_some_iff.mp hstep
    cases he
    obtain ⟨cr, hcr, hs⟩ := stableAt_current c w v hv hc
    change v.crs c.name = some stored at hstored
    rw [hname, hcr] at hstored
    cases hstored
    refine ⟨?_, trivial⟩
    show Traced name uid held { v with
      crs := Function.update v.crs c.name (some { stored with status := some status }), trace := _ }
    rw [hname]
    refine traced_patch hi hcr hs (hcover.imp id fun h => ⟨h.1, ?_⟩) _
    exact stableAt_retired c w v hv h.2

theorem safe_degrade (hname : c.name = name) (hi : Traced name uid held w) (hc : Current name c w)
    (reason : Reason) (message : String) :
    (tracing name uid held).Safe (fun _ _ => True) (degrade c reason message) w := by
  refine Setting.Safe.bind hi (safe_of_keeps (keeps_publishWarning fun _ => rfl)
    (stableAt_current c) hc) fun _ w hi hc => ?_
  refine Setting.Safe.bind hi (safe_of_keeps (.atomic fun _ => rfl) (stableAt_current c) hc)
    fun now w hi hc => ?_
  refine safe_patchStatus hname hc (Or.inl ?_)
  show (c.status.getD {}).targetSecretName = c.status.bind (·.targetSecretName)
  cases c.status <;> rfl

/-- 所有を外すだけの動きは、いつでも許される。 -/
theorem traced_shrink (hcrs : w'.crs = w.crs)
    (hown : ∀ n f, ownerOf uid (w'.secrets n) = some f → ownerOf uid (w.secrets n) = some f)
    (h : Traced name uid held w) : Traced name uid held w' := by
  intro cr hcr
  rw [hcrs] at hcr
  obtain ⟨hname, huid, howned⟩ := h cr hcr
  exact ⟨hname, huid, fun n f hf => howned n f (hown n f hf)⟩

theorem ownerOf_update {n' : String} {s : Option StoredSecret} {f : Field OwnerReference}
    (hs : ownerOf uid s = none) (hf : ownerOf uid (Function.update w.secrets n s n') = some f) :
    ownerOf uid (w.secrets n') = some f := by
  by_cases hn : n' = n
  · rw [hn, Function.update_self, hs] at hf
    cases hf
  · rwa [Function.update_of_ne hn] at hf

theorem safe_disown {f : StoredSecret → Option StoredSecret} {entry : Entry}
    (hf : ∀ s, ownerOf uid (f s) = none) (hs : (tracing name uid held).StableAt P) (hw : P w) :
    (tracing name uid held).Safe (fun _ w => P w ∧ ownerOf uid (w.secrets n) = none)
      (Prog.attempt fun w => (w.secrets n).map fun s =>
        ((), { w with secrets := Function.update w.secrets n (f s), trace := w.trace ++ [entry] }))
      w := by
  refine Setting.Safe.attempt (fun _ u v hd h => ⟨hs u v hd h.1, ownerOf_eq_none_of_drifts hd h.2⟩)
    (fun _ _ _ _ => trivial) ?_
  intro v _ v' hv hi hstep
  obtain ⟨s, -, he⟩ := Option.map_eq_some_iff.mp hstep
  cases he
  have hown := fun n' g => @ownerOf_update uid v n n' (f s) g (hf s)
  refine ⟨traced_shrink (w := v) rfl hown hi, hs v _ ⟨fun cr h => ⟨cr, h, rfl⟩, hown⟩
    (hs w v hv hw), ?_⟩
  show ownerOf uid (Function.update v.secrets n (f s) n) = none
  rw [Function.update_self]
  exact hf s

/-- 所有しているかを見た後の始末。所有していなければ、もう外すものはない。 -/
theorem safe_dispose {dispose : Prog World Unit} (hu : c.uid = some uid)
    (hex : ∀ w, P w → w.crs name ≠ none) (hdispose : ∀ w, P w → (tracing name uid held).Safe
      (fun _ w => P w ∧ ownerOf uid (w.secrets n) = none) dispose w)
    (hs : (tracing name uid held).StableAt P) (hi : Traced name uid held w) (hw : P w) :
    (tracing name uid held).Safe (fun _ w => P w ∧ ownerOf uid (w.secrets n) = none)
      (getSecret c n >>= fun existing =>
        if existing.any (ownedBy · c) then dispose else pure ()) w := by
  have hstable : (tracing name uid held).StableAt fun w => P w ∧ ownerOf uid (w.secrets n) = none :=
    fun u v hd h => ⟨hs u v hd h.1, ownerOf_eq_none_of_drifts hd h.2⟩
  refine Setting.Safe.bind hi (show (tracing name uid held).Safe (fun existing w => P w ∧
    (existing.any (ownedBy · c) = false → ownerOf uid (w.secrets n) = none)) _ w from ?_)
    fun existing w hi h => ?_
  · refine Setting.Safe.read (fun _ u v hd h => ⟨hs u v hd h.1, fun he =>
      ownerOf_eq_none_of_drifts hd (h.2 he)⟩) fun v hv hi => ⟨hs w v hv hw, fun hno => ?_⟩
    obtain ⟨cr, hcr⟩ := Option.ne_none_iff_exists'.mp (hex v (hs w v hv hw))
    cases hsec : v.secrets n with
    | none => rfl
    | some s =>
      change Option.any (ownedBy · c) ((v.secrets n).map _) = false at hno
      rw [hsec, Option.map_some, Option.any_some, ownedBy_read hu, ← hsec] at hno
      rw [← hsec]
      -- CR を指す参照は BunkerSecret のものなので、見落とされることはない
      cases hf : ownerOf uid (v.secrets n) with
      | none => rfl
      | some f => simp [hf, ((hi cr hcr).2.2 n f hf).1] at hno
  · split
    · exact hdispose w h.1
    · next hno => exact Setting.Safe.ret hstable ⟨h.1, h.2 (Bool.not_eq_true _ ▸ hno)⟩

theorem current_ne_none (h : Current name c w) : w.crs name ≠ none := by
  obtain ⟨cr, hcr, -⟩ := h
  rw [hcr]
  exact Option.some_ne_none cr

/-- 前の Secret から手を引く。 -/
theorem safe_retirePrevious (hu : c.uid = some uid) (hi : Traced name uid held w)
    (hc : Current name c w) :
    (tracing name uid held).Safe (fun _ w => Current name c w ∧ Retired uid c w) (retirePrevious c) w := by
  have hstable : (tracing name uid held).StableAt fun w => Current name c w ∧ Retired uid c w :=
    fun u v hd h => ⟨stableAt_current c u v hd h.1, stableAt_retired c u v hd h.2⟩
  unfold retirePrevious
  split
  · next prev hprev =>
    split
    · next heq =>
      refine Setting.Safe.ret hstable ⟨hc, fun p hp hne => ?_⟩
      rw [hprev] at hp
      cases hp
      exact absurd heq hne
    · refine (safe_dispose hu (fun _ => current_ne_none) (fun w hc => ?_) (stableAt_current c) hi
        hc).mono fun _ w _ h => ⟨h.1, fun p hp _ => ?_⟩
      · split
        · exact safe_disown (f := fun _ => none) (fun _ => rfl) (stableAt_current c) hc
        · exact safe_disown (f := fun s => some s.orphan) (fun _ => rfl) (stableAt_current c) hc
      · rw [hprev] at hp
        cases hp
        exact h.2
  · next hnone =>
    refine Setting.Safe.ret hstable ⟨hc, fun p hp _ => ?_⟩
    rw [hnone] at hp
    cases hp

/-- 書くのは、握っている名前だけである。 -/
theorem safe_writeSecret {existing : Option K8sSecret} {desired : K8sSecret}
    (hu : c.uid = some uid) (hheld : held = some c.targetName)
    (hbuilt : buildSecret cfg.prim c data = some desired) (hc : Current name c w) :
    (tracing name uid held).Safe (fun _ => Current name c)
      (writeSecret cfg c existing desired) w := by
  unfold writeSecret
  split
  · exact safe_of_keeps (.atomic fun _ => rfl) (stableAt_current c) hc
  · refine Setting.Safe.atomic (fun _ => stableAt_current c) fun v hv hi => ⟨?_,
      (stableAt_current c w v hv hc : Current name c v)⟩
    intro cr hcr
    obtain ⟨hname, huid, howned⟩ := hi cr hcr
    refine ⟨hname, huid, fun n f hf => ?_⟩
    change ownerOf uid (Function.update v.secrets desired.name _ n) = some f at hf
    by_cases hn : n = desired.name
    · -- 書いたのは手続きの target である
      rw [hn, Function.update_self] at hf
      obtain ⟨g, hg, hkind⟩ := ownerOf_apply hu hbuilt (v.secrets desired.name)
      change ownerOf uid (some (StoredSecret.apply (v.secrets desired.name) desired)) = some f at hf
      rw [hg] at hf
      cases hf
      rw [hn, name_buildSecret hbuilt]
      exact ⟨hkind, Or.inr (Or.inr hheld)⟩
    · rw [Function.update_of_ne hn] at hf
      exact howned n f hf

theorem safe_reportSynced (hname : c.name = name) (hi : Traced name uid held w)
    (hc : Current name c w ∧ Retired uid c w) :
    (tracing name uid held).Safe (fun _ _ => True) (reportSynced cfg c data) w := by
  have hstable : (tracing name uid held).StableAt fun w => Current name c w ∧ Retired uid c w :=
    fun u v hd h => ⟨stableAt_current c u v hd h.1, stableAt_retired c u v hd h.2⟩
  refine Setting.Safe.bind hi (safe_of_keeps (.atomic fun _ => rfl) hstable hc)
    fun stale w hi hc => ?_
  refine Setting.Safe.bind hi (safe_of_keeps ?_ hstable hc) fun _ w hi hc => ?_
  · split
    · exact keeps_publishWarning fun _ => rfl
    · trivial
  refine Setting.Safe.bind hi (safe_of_keeps (.atomic fun _ => rfl) hstable hc)
    fun condition w hi hc => ?_
  refine Setting.Safe.bind hi (safe_of_keeps (.atomic fun _ => rfl) hstable hc)
    fun lastSynced w hi hc => ?_
  exact safe_patchStatus hname hc.1 (Or.inr ⟨rfl, hc.2⟩)

/-! ## 二つの腕 -/

theorem safe_ret {r : Except OperatorError Action} (hs : (tracing name uid held).StableAt P)
    (hw : P w) : (tracing name uid held).Safe (fun _ => P) (pure r) w := Setting.Safe.ret hs hw

theorem safe_applyRendered (hname : c.name = name) (hu : c.uid = some uid)
    (hheld : held = some c.targetName) (hi : Traced name uid held w) (hc : Current name c w) :
    (tracing name uid held).Safe (fun _ _ => True) (applyRendered cfg c data) w := by
  refine Setting.Safe.bind hi (safe_of_keeps (.atomic fun _ => rfl) (stableAt_current c) hc)
    fun existing w hi hc => ?_
  split
  · exact Setting.Safe.bind hi (safe_degrade hname hi hc _ _) fun _ _ _ _ =>
      safe_ret (fun _ _ _ _ => trivial) trivial
  · refine Setting.Safe.bind hi (show (tracing name uid held).Safe (fun desired w =>
      buildSecret cfg.prim c data = some desired ∧ Current name c w) _ w from
        Setting.Safe.orFail (fun _ u v hd h => ⟨h.1, stableAt_current c u v hd h.2⟩)
          (fun _ => trivial) fun desired hb => ⟨hb, hc⟩) fun desired w hi hd => ?_
    refine Setting.Safe.bind hi (safe_writeSecret hu hheld hd.1 hd.2) fun _ w hi hc => ?_
    refine Setting.Safe.bind hi (safe_retirePrevious hu hi hc) fun _ w hi hc => ?_
    exact Setting.Safe.bind hi (safe_reportSynced hname hi hc) fun _ _ _ _ =>
      safe_ret (fun _ _ _ _ => trivial) trivial

/-- apply の腕。 -/
theorem safe_applyBunkerSecret (hname : c.name = name) (hu : c.uid = some uid)
    (hheld : held = some c.targetName) (hi : Traced name uid held w) (hc : Current name c w) :
    (tracing name uid held).Safe (fun _ _ => True) (applyBunkerSecret cfg c) w := by
  refine Setting.Safe.bind hi (safe_of_keeps (.atomic fun _ => rfl) (stableAt_current c) hc)
    fun synced w hi hc => ?_
  split
  · refine Setting.Safe.bind hi (safe_of_keeps (.atomic fun _ => rfl) (stableAt_current c) hc)
      fun rendered w hi hc => ?_
    cases rendered with
    | ok data => exact safe_applyRendered hname hu hheld hi hc
    | error e =>
      dsimp only
      unfold handleRenderError
      split
      · exact safe_ret (fun _ _ _ _ => trivial) trivial
      · exact Setting.Safe.bind hi (safe_degrade hname hi hc _ _) fun _ _ _ _ =>
          safe_ret (fun _ _ _ _ => trivial) trivial
  · exact Setting.Safe.bind hi (safe_degrade hname hi hc _ _) fun _ _ _ _ =>
      safe_ret (fun _ _ _ _ => trivial) trivial

/-- status に残る target が今の target か、もう所有されていないなら、Cleanup の腕の後には所有が残らない。 -/
theorem safe_cleanupBunkerSecret (hu : c.uid = some uid) (hi : Traced name uid none w)
    (hcr : w.crs name = some c) (hrec : c.spec.deletionPolicy = .retain →
      ∀ prev, c.recordedTarget = some prev →
      prev = c.targetName ∨ ownerOf uid (w.secrets prev) = none) :
    (tracing name uid none).Safe (fun _ w => c.spec.deletionPolicy = .retain → Unowned uid w)
      (cleanupBunkerSecret c) w := by
  -- 走っている間、所有されているのは受け取った CR の target だけである
  let Only : World → Prop := fun w => w.crs name ≠ none ∧
    ∀ n, n ≠ c.targetName → ownerOf uid (w.secrets n) = none
  have honly : (tracing name uid none).StableAt Only := by
    intro u v hd h
    obtain ⟨cr, hcr⟩ := Option.ne_none_iff_exists'.mp h.1
    obtain ⟨cr', hcr', -⟩ := hd.1 cr hcr
    refine ⟨?_, fun n hn => ownerOf_eq_none_of_drifts hd (h.2 n hn)⟩
    rw [hcr']
    exact Option.some_ne_none cr'
  have hstable : (tracing name uid none).StableAt fun w =>
      c.spec.deletionPolicy = .retain → Unowned uid w :=
    fun _ _ hd h hp n => ownerOf_eq_none_of_drifts hd (h hp n)
  unfold cleanupBunkerSecret
  split
  · next hp => exact safe_ret hstable fun h => nomatch hp.symm.trans h
  · next hp =>
    have hw : Only w := by
      refine ⟨by rw [hcr]; exact Option.some_ne_none c, fun n hn => ?_⟩
      cases hf : ownerOf uid (w.secrets n) with
      | none => rfl
      | some f =>
        rcases ((hi c hcr).2.2 n f hf).2 with h | h | h
        · exact absurd h hn
        · rcases hrec hp n h with h | h
          · exact absurd h hn
          · rw [h] at hf
            cases hf
        · cases h
    simp only [bind, ← Prog.bind_assoc]
    refine Setting.Safe.bind hi (safe_dispose hu (fun _ h => h.1) (fun w hw =>
      safe_disown (f := fun s => some s.orphan) (fun _ => rfl) honly hw) honly hi hw)
      fun _ w _ h => safe_ret hstable fun _ n => ?_
    by_cases hn : n = c.targetName
    · rw [hn]
      exact h.2
    · exact h.1.2 n hn

/-! ## 経過 -/

/-- 走っている Apply の腕の target。 -/
def heldBy : Option (Arm × BunkerSecret) → Option String
  | some (.apply, c) => some c.targetName
  | _ => none

variable (name uid) in
/-- この名前の Secret が CR を指していても、今の CR からたどれる。 -/
def Reachable (w : World) (n : String) : Prop :=
  ∀ cr ∈ w.crs name, n = cr.targetName ∨ cr.recordedTarget = some n ∨
    ownerOf uid (w.secrets n) = none

variable (name uid) in
/-- 改名は、CR を指す今の target の名前が status か走っている reconcile に残るときに行う。reconcile は、
書いた Secret がたどれるところで終わる。Retain の片付けは、前の target を所有したままでは始めない。 -/
def Orderly (s : State) : Act → Prop
  | .client (.edit spec) => ∀ cr ∈ s.world.crs name,
      { cr with spec : BunkerSecret }.targetName = cr.targetName ∨
      cr.recordedTarget = some cr.targetName ∨ heldBy s.running = some cr.targetName ∨
      ownerOf uid (s.world.secrets cr.targetName) = none
  | .reconcile => ∀ cr ∈ s.world.crs name, cr.deleting = true ∧ cr.spec.deletionPolicy = .retain →
      ∀ prev ∈ cr.recordedTarget, prev = cr.targetName ∨ ownerOf uid (s.world.secrets prev) = none
  | .client _ => True
  | a => ∀ t ∈ s.task, t.Ends a → ∀ n ∈ heldBy s.running, Reachable name uid s.world n

instance (w : World) (n : String) : Decidable (Reachable name uid w n) :=
  inferInstanceAs (Decidable (∀ cr ∈ w.crs name, _ ∨ _ ∨ _))

instance (s : State) : (a : Act) → Decidable (Orderly name uid s a)
  | .client (.edit _) => inferInstanceAs (Decidable (∀ cr ∈ s.world.crs name, _ ∨ _ ∨ _ ∨ _))
  | .client .delete | .client (.secret ..) | .client (.sync ..) | .client (.tick ..) => .isTrue trivial
  | .reconcile => inferInstanceAs (Decidable (∀ cr ∈ s.world.crs name, _ → ∀ prev ∈ _, _ ∨ _))
  | .advance => inferInstanceAs (Decidable (∀ t ∈ s.task, _ → ∀ n ∈ _, _))
  | .stop => inferInstanceAs (Decidable (∀ t ∈ s.task, _ → ∀ n ∈ _, _))

/-- target のほかは変えない書き換え。 -/
theorem mapCr_edit {f : BunkerSecret → BunkerSecret}
    (hf : ∀ cr, (f cr).name = cr.name ∧ (f cr).uid = cr.uid ∧ (f cr).status = cr.status)
    (hi : Traced name uid held w)
    (ht : ∀ cr, w.crs name = some cr → (f cr).targetName = cr.targetName ∨
      cr.recordedTarget = some cr.targetName ∨ held = some cr.targetName ∨
      ownerOf uid (w.secrets cr.targetName) = none) : Traced name uid held (w.mapCr name f) := by
  intro cr' hcr'
  change Function.update w.crs name _ name = some cr' at hcr'
  rw [Function.update_self] at hcr'
  obtain ⟨cr, hcr, rfl⟩ := Option.map_eq_some_iff.mp hcr'
  obtain ⟨hname, huid, hstatus⟩ := hf cr
  obtain ⟨hn, hu, howned⟩ := hi cr hcr
  refine ⟨hname.trans hn, huid.trans hu, fun n g hg => ?_⟩
  change ownerOf uid (w.secrets n) = some g at hg
  obtain ⟨hkind, htraced⟩ := howned n g hg
  refine ⟨hkind, ?_⟩
  rw [recordedTarget_congr hstatus]
  rcases htraced with rfl | h
  · rcases ht cr hcr with h | h | h | h
    · exact Or.inl h.symm
    · exact Or.inr (Or.inl h)
    · exact Or.inr (Or.inr h)
    · rw [h] at hg
      cases hg
  · exact Or.inr h

theorem drifts_mapCr {f : BunkerSecret → BunkerSecret} (hf : ∀ cr, (f cr).status = cr.status) :
    Drifts name uid w (w.mapCr name f) := by
  refine ⟨fun cr hcr => ⟨f cr, ?_, hf cr⟩, fun _ _ h => h⟩
  show Function.update w.crs name _ name = some (f cr)
  rw [Function.update_self, hcr, Option.map_some]

/-- 終わった reconcile の target は、たどれるならもう覚えておかなくてよい。 -/
theorem Traced.leave (h : Traced name uid held w)
    (hheld : ∀ n, held = some n → Reachable name uid w n) : Traced name uid none w := by
  intro cr hcr
  obtain ⟨hname, hu, howned⟩ := h cr hcr
  refine ⟨hname, hu, fun n f hf => ?_⟩
  obtain ⟨hkind, hn | hn | hn⟩ := howned n f hf
  · exact ⟨hkind, Or.inl hn⟩
  · exact ⟨hkind, Or.inr (Or.inl hn)⟩
  · rcases hheld n hn cr hcr with h | h | h
    · exact ⟨hkind, Or.inl h⟩
    · exact ⟨hkind, Or.inr (Or.inl h)⟩
    · rw [h] at hf
      cases hf

theorem Traced.hold (h : Traced name uid none w) : Traced name uid held w := by
  intro cr hcr
  obtain ⟨hname, hu, howned⟩ := h cr hcr
  refine ⟨hname, hu, fun n f hf => ?_⟩
  obtain ⟨hkind, hn⟩ := howned n f hf
  exact ⟨hkind, hn.imp id (Or.imp id fun h => nomatch h)⟩

/-- 運転の規則。 -/
theorem rules_orderly : Rules cfg name uid (fun k => tracing name uid (heldBy k))
    (fun arm c w => arm = .cleanup → c.spec.deletionPolicy = .retain → Unowned uid w)
    (Orderly name uid) where
  view _ := rfl
  put _ := rfl
  escape _ _ := id
  client s c hok hi := by
    cases c with
    | edit spec =>
      exact ⟨mapCr_edit (fun _ => ⟨rfl, rfl, rfl⟩) hi hok, drifts_mapCr fun _ => rfl⟩
    | delete =>
      exact ⟨mapCr_edit (fun _ => ⟨rfl, rfl, rfl⟩) hi fun _ _ => Or.inl rfl,
        drifts_mapCr fun _ => rfl⟩
    | secret n stored =>
      unfold World.client
      dsimp only
      split
      · next h =>
        have hown : ∀ n' f, ownerOf uid (Function.update s.world.secrets n stored n') = some f →
            ownerOf uid (s.world.secrets n') = some f := by
          intro n' f hf
          rcases h with h | h
          · exact ownerOf_update h hf
          · by_cases hn : n' = n
            · rw [hn, Function.update_self, h] at hf
              rw [hn]
              exact hf
            · rwa [Function.update_of_ne hn] at hf
        exact ⟨traced_shrink (w := s.world) rfl hown hi, fun cr h => ⟨cr, h, rfl⟩, hown⟩
      · exact ⟨hi, .refl _⟩
    | sync mirror lastSynced disconnectedFor =>
      exact ⟨traced_congr (w := s.world) rfl rfl hi, drifts_congr rfl rfl⟩
    | tick now recorderUp =>
      exact ⟨traced_congr (w := s.world) rfl rfl hi, drifts_congr rfl rfl⟩
  apply w cr _ hi hcr _ := by
    obtain ⟨hname, hu, -⟩ := hi cr hcr
    refine ⟨hi.hold, ?_⟩
    exact (safe_applyBunkerSecret hname hu rfl hi.hold ⟨cr, hcr, rfl⟩).mono fun _ _ _ _ h => nomatch h
  cleanup w cr hok hi hcr hd := by
    obtain ⟨-, hu, -⟩ := hi cr hcr
    refine ⟨hi, ?_⟩
    exact (safe_cleanupBunkerSecret hu hi hcr fun hp prev h => hok cr hcr ⟨hd, hp⟩ prev h).mono
      fun _ _ _ h _ => h
  leave w t a hok hends hi := by
    cases a with
    | client c => exact hends.elim
    | reconcile => exact hends.elim
    | advance => exact hi.leave (hok t rfl hends)
    | stop => exact hi.leave (hok t rfl hends)
  vanish w _ cr hcr := by
    change Function.update w.crs name none name = some cr at hcr
    rw [Function.update_self] at hcr
    cases hcr

theorem Fresh.traced (h : Fresh name uid w) : Traced name uid none w := by
  intro cr hcr
  obtain ⟨hname, hu⟩ := h.metadata cr hcr
  refine ⟨hname, hu, fun n f hf => ?_⟩
  rw [h.unowned n] at hf
  cases hf

/-- **書いた Secret の名前を失わなければ、Retain は作った Secret を残す。**
できたばかりの CR から、どこで打ち切られる経過でも、改名と打ち切りと Retain の片付けが条件を満たして進めば、
`cleanup_bunker_secret` が `Ok` を返したとき、CR を指す ownerReference の残る Secret はない。 -/
theorem retain_leaves_no_owner (cfg : Config) (name uid : String) (w : World) (acts : List Act)
    (hfresh : Fresh name uid w)
    (horderly : State.Follows cfg name uid (Orderly name uid) ⟨w, none⟩ acts)
    (cr : BunkerSecret) (hdone : (State.exec cfg name uid ⟨w, none⟩ acts).cleaned = some cr)
    (hretain : cr.spec.deletionPolicy = .retain) (n : String) :
    ownerOf uid ((State.exec cfg name uid ⟨w, none⟩ acts).world.secrets n) = none :=
  (State.under_exec rules_orderly horderly ⟨hfresh.traced, fun _ h => nomatch h⟩).cleaned hdone
    rfl hretain n

/-- `a` に書き、`b` への改名を終えてから、CR を削除する。 -/
def renamedThenDeleted : List Act :=
  reconcileFor 9 ++ .client (.edit (sampleSpec "b")) :: reconcileFor 11 ++
    .client .delete :: reconcileFor 2

theorem retain_leaves_no_owner_sample :
    ownerOf "u" ((State.exec sampleConfig "app" "u" ⟨sampleWorld, none⟩
      renamedThenDeleted).world.secrets "b") = none := by
  refine retain_leaves_no_owner sampleConfig "app" "u" sampleWorld renamedThenDeleted
    fresh_sampleWorld (by decide +kernel)
    ⟨"prod", "app", some "u", 2, true, sampleSpec "b", some
      ⟨[⟨true, .synced, "", 0, 2⟩], some 0, some 2, [], some "b"⟩⟩ (by decide +kernel) rfl "b"

/-- `a` に書いた後、`b` への改名を reconcile しないうちに CR を削除する。 -/
def deletedBeforeRename : List Act :=
  reconcileFor 9 ++ .client (.edit (sampleSpec "b")) :: .client .delete :: reconcileFor 1

/-- 片付けは `Ok` を返すが、書いた Secret `a` は CR を指したままである。 -/
theorem retain_misses_previous_target :
    Fresh "app" "u" sampleWorld ∧
    (State.exec sampleConfig "app" "u" ⟨sampleWorld, none⟩ deletedBeforeRename).cleaned.map
      (·.spec.deletionPolicy) = some .retain ∧
    (State.exec sampleConfig "app" "u" ⟨sampleWorld, none⟩ deletedBeforeRename).world.trace.any
      (fun e => match e with
        | .applied _ secret => secret.name == "a"
        | _ => false) = true ∧
    ownerOf "u" ((State.exec sampleConfig "app" "u" ⟨sampleWorld, none⟩
      deletedBeforeRename).world.secrets "a") ≠ none :=
  ⟨fresh_sampleWorld, by decide +kernel, by decide +kernel, by decide +kernel⟩

end Operator

end SecretBunker
