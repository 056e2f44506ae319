import SecretBunker.Operator.History

/-!
# AccessRevoked の診断

group が mirror から消えたとき、operator は「前に同期していて、spec がそれから動いていない」なら
AccessRevoked と診断する。spec が動いていないかは `observedGeneration` で見るが、
`status_with` は失敗した reconcile でもこれを今の generation に進める。そのため書き換えた後の一度目は
MissingGroup でも、二度目からは AccessRevoked になる。

一度も書いていない generation についての失敗の上に、reconcile を重ねないうちは、AccessRevoked は最後に
書いた generation についてだけ知らされる。
-/

namespace SecretBunker

open Interleaving Ordered

namespace Operator

variable {cfg : Config} {name uid : String}

/-! ## 足跡 -/

/-- Secret を書いた（または一致を確かめた）generation。 -/
def Entry.appliedAt : Entry → Option Int
  | .applied generation _ => some generation
  | .skipped generation _ => some generation
  | _ => none

/-- 知らせた理由と、その generation。 -/
def Entry.verdict : Entry → Option (Reason × Int)
  | .reported status _ => status.conditions.head?.map fun c => (c.reason, c.observedGeneration)
  | .warned generation reason _ => some (reason, generation)
  | _ => none

/-- 最後に render して書き終えた generation。 -/
def lastApplied (trace : List Entry) : Option Int := (trace.filterMap Entry.appliedAt).getLast?

/-- AccessRevoked は、最後に書いた generation についてだけ知らされている。 -/
def Justified (trace : List Entry) : Prop :=
  ∀ earlier e later, trace = earlier ++ e :: later →
    ∀ generation, e.verdict = some (.accessRevoked, generation) → lastApplied earlier = some generation

theorem lastApplied_append (trace : List Entry) (e : Entry) :
    lastApplied (trace ++ [e]) = e.appliedAt.or (lastApplied trace) := by
  unfold lastApplied
  rw [List.filterMap_append]
  cases h : e.appliedAt with
  | none => simp [h]
  | some g => simp [h]

theorem justified_append {trace : List Entry} {e : Entry} (h : Justified trace)
    (he : ∀ generation, e.verdict = some (.accessRevoked, generation) →
      lastApplied trace = some generation) : Justified (trace ++ [e]) := by
  intro earlier e' later heq generation hs
  rcases List.eq_nil_or_concat later with rfl | ⟨rest, last, rfl⟩
  · obtain ⟨rfl, hl⟩ := List.append_inj' heq rfl
    cases hl
    exact he generation hs
  · rw [List.concat_eq_append, ← List.cons_append, ← List.append_assoc] at heq
    exact h earlier e' rest (List.append_inj' heq rfl).1 generation hs

/-! ## 世界 -/

/-- 書き終えた reconcile か、AccessRevoked の診断の理由。 -/
def Reason.settled (r : Reason) : Prop := r = .synced ∨ r = .staleReplica ∨ r = .accessRevoked

instance (r : Reason) : Decidable r.settled := inferInstanceAs (Decidable (_ ∨ _ ∨ _))

/-- 残された status は、それより古くない generation を書いた後のものである。 -/
def Trusted (cr : BunkerSecret) (trace : List Entry) : Prop :=
  ∀ s c, cr.status = some s → s.conditions.head? = some c → s.lastSyncTime ≠ none →
    c.reason.settled → ∀ generation, s.observedGeneration = some generation →
      ∃ a, lastApplied trace = some a ∧ generation ≤ a

variable (name) in
def Diagnosed (w : World) : Prop :=
  Justified w.trace ∧ ∀ cr, w.crs name = some cr → cr.name = name ∧
    (∀ a, lastApplied w.trace = some a → a ≤ cr.generation) ∧ Trusted cr w.trace

variable (name) in
/-- reconcile の走る間に動いてよい幅。 -/
def Ages (w w' : World) : Prop :=
  w'.trace = w.trace ∧ ∀ cr, w.crs name = some cr →
    ∃ cr', w'.crs name = some cr' ∧ cr'.status = cr.status ∧ cr.generation ≤ cr'.generation

theorem Ages.refl (w : World) : Ages name w w := ⟨rfl, fun cr h => ⟨cr, h, rfl, le_refl _⟩⟩

theorem Ages.trans {w₁ w₂ w₃ : World} (h : Ages name w₁ w₂) (h' : Ages name w₂ w₃) :
    Ages name w₁ w₃ := by
  refine ⟨h'.1.trans h.1, fun cr hcr => ?_⟩
  obtain ⟨cr₂, h₂, hs₂, hg₂⟩ := h.2 cr hcr
  obtain ⟨cr₃, h₃, hs₃, hg₃⟩ := h'.2 cr₂ h₂
  exact ⟨cr₃, h₃, hs₃.trans hs₂, hg₂.trans hg₃⟩

variable (name) in
/-- 打ち切られうる reconcile の世界。 -/
def diagnosing : Setting World World where
  view := id
  put := fun _ w => w
  put_view := id_eq
  inv := Diagnosed name
  rely := Ages name
  refl := .refl
  trans := .trans
  mayFail := True

variable (name) in
/-- 受け取った CR は今の CR より新しくなく、最後に書いた generation は `Q` を満たす。 -/
def At (c : BunkerSecret) (Q : Option Int → Prop) (w : World) : Prop :=
  (∃ cr, w.crs name = some cr ∧ c.generation ≤ cr.generation) ∧ Q (lastApplied w.trace)

variable {c : BunkerSecret} {Q : Option Int → Prop} {w : World}

theorem stableAt_at (c : BunkerSecret) (Q : Option Int → Prop) :
    (diagnosing name).StableAt (At name c Q) := by
  rintro w w' hd ⟨⟨cr, hcr, hg⟩, hQ⟩
  obtain ⟨cr', hcr', -, hg'⟩ := hd.2 cr hcr
  rw [At, hd.1]
  exact ⟨⟨cr', hcr', hg.trans hg'⟩, hQ⟩

/-- 足跡を一つ増やす。 -/
theorem diagnosed_record {e : Entry} (h : Diagnosed name w) (hnone : e.appliedAt = none)
    (he : ∀ generation, e.verdict = some (.accessRevoked, generation) →
      lastApplied w.trace = some generation) : Diagnosed name (w.record e) := by
  have hlast : lastApplied (w.trace ++ [e]) = lastApplied w.trace := by
    rw [lastApplied_append, hnone, Option.none_or]
  refine ⟨justified_append h.1 he, fun cr hcr => ?_⟩
  show cr.name = name ∧ (∀ a, lastApplied (w.trace ++ [e]) = some a → _) ∧
    Trusted cr (w.trace ++ [e])
  unfold Trusted
  rw [hlast]
  exact h.2 cr hcr

theorem at_record {e : Entry} (hnone : e.appliedAt = none) (h : At name c Q w) :
    At name c Q (w.record e) := by
  refine ⟨h.1, ?_⟩
  show Q (lastApplied (w.trace ++ [e]))
  rw [lastApplied_append, hnone, Option.none_or]
  exact h.2

/-! ## 動作 -/

theorem safe_readAt {α : Type} {f : World → α} (h : At name c Q w) :
    (diagnosing name).Safe (fun _ => At name c Q) (Prog.read f) w :=
  Setting.Safe.read (fun _ => stableAt_at c Q) fun v hv _ => stableAt_at c Q w v hv h

theorem safe_publish {reason : Reason} (message : String) (h : At name c Q w)
    (hQ : ∀ la, Q la → reason.settled → la = some c.generation) :
    (diagnosing name).Safe (fun _ => At name c Q) (publishWarningOnTransition c reason message)
      w := by
  unfold publishWarningOnTransition
  split
  · exact Setting.Safe.ret (stableAt_at c Q) h
  · refine Setting.Safe.atomic (fun _ => stableAt_at c Q) fun v hv hi => ?_
    have hat := stableAt_at c Q w v hv h
    show Diagnosed name (if v.recorderUp then _ else v) ∧ At name c Q (if v.recorderUp then _ else v)
    split
    · refine ⟨diagnosed_record hi rfl fun g hg => ?_, at_record rfl hat⟩
      obtain ⟨hr, rfl⟩ := Prod.mk.inj (Option.some.inj hg)
      exact hQ _ hat.2 (Or.inr (Or.inr hr))
    · exact ⟨hi, hat⟩

/-- 今の generation についての status を残す。 -/
theorem safe_patch {status : BunkerSecretStatus} {condition : Condition} (hname : c.name = name)
    (h : At name c Q w) (hcond : status.conditions = [condition])
    (hgen : condition.observedGeneration = c.generation)
    (hobs : status.observedGeneration = some c.generation)
    (hQ : ∀ la, Q la → condition.reason.settled → la = some c.generation) :
    (diagnosing name).Safe (fun _ _ => True) (patchStatus c status) w := by
  have hverdict : ∀ v b g, At name c Q v →
      (Entry.reported status b).verdict = some (.accessRevoked, g) →
        lastApplied v.trace = some g := by
    intro v b g hat hg
    change status.conditions.head?.map _ = _ at hg
    rw [hcond] at hg
    obtain ⟨hr, rfl⟩ := Prod.mk.inj (Option.some.inj hg)
    rw [hgen]
    exact hQ _ hat.2 (Or.inr (Or.inr hr))
  unfold patchStatus
  split
  · refine Setting.Safe.atomic (fun _ _ _ _ _ => trivial) fun v hv hi => ⟨?_, trivial⟩
    exact diagnosed_record hi rfl fun g hg => hverdict v _ g (stableAt_at c Q w v hv h) hg
  · refine Setting.Safe.attempt (fun _ _ _ _ _ => trivial) (fun _ _ _ _ => trivial) ?_
    intro v _ v' hv hi hstep
    obtain ⟨stored, hstored, he⟩ := Option.map_eq_some_iff.mp hstep
    cases he
    refine ⟨?_, trivial⟩
    have hat := stableAt_at c Q w v hv h
    obtain ⟨hj, hcr⟩ := diagnosed_record hi rfl fun g hg => hverdict v true g hat hg
    refine ⟨hj, fun cr' hcr' => ?_⟩
    change Function.update v.crs c.name _ name = some cr' at hcr'
    change v.crs c.name = some stored at hstored
    rw [hname] at hcr' hstored
    rw [Function.update_self] at hcr'
    cases hcr'
    obtain ⟨hn, hle, -⟩ := hcr stored hstored
    refine ⟨hn, hle, fun s c' hs hc' _ hsettled g hg => ⟨c.generation, ?_, ?_⟩⟩
    · cases hs
      rw [hcond] at hc'
      cases hc'
      show lastApplied (v.trace ++ [_]) = _
      rw [lastApplied_append]
      exact hQ _ hat.2 hsettled
    · cases hs
      rw [hobs] at hg
      cases hg
      exact le_refl _

theorem safe_degradeAt {reason : Reason} (message : String) (hname : c.name = name)
    (hi : Diagnosed name w) (h : At name c Q w)
    (hQ : ∀ la, Q la → reason.settled → la = some c.generation) :
    (diagnosing name).Safe (fun _ _ => True) (degrade c reason message) w := by
  refine Setting.Safe.bind hi (safe_publish message h hQ) fun _ w hi h => ?_
  exact Setting.Safe.bind hi (safe_readAt h) fun now w hi h => safe_patch hname h rfl rfl rfl hQ

/-- CR と足跡に触れない動作。 -/
theorem safe_quiet {f : World → Option (Unit × World)} (h : At name c Q w)
    (hf : ∀ v v', f v = some ((), v') → v'.crs = v.crs ∧ ∃ e, v'.trace = v.trace ++ [e] ∧
      e.appliedAt = none ∧ e.verdict = none) :
    (diagnosing name).Safe (fun _ => At name c Q) (Prog.attempt f) w := by
  refine Setting.Safe.attempt (fun _ => stableAt_at c Q) (fun _ _ _ _ => trivial) ?_
  intro v _ v' hv hi hstep
  obtain ⟨hcrs, e, htrace, hnone, hverdict⟩ := hf v v' hstep
  have hrec := diagnosed_record hi hnone fun g hg => by rw [hverdict] at hg; cases hg
  have hat := at_record (e := e) hnone (stableAt_at c Q w v hv h)
  change Diagnosed name v' ∧ At name c Q v'
  unfold Diagnosed At at *
  rw [hcrs, htrace]
  exact ⟨hrec, hat⟩

/-- 所有を外すのも消すのも、Secret を `f` に置き換えて `entry` を残す動作である。 -/
theorem safe_dispossess {f : StoredSecret → Option StoredSecret} {entry : Entry} {n : String}
    (h : At name c Q w) (hnone : entry.appliedAt = none) (hverdict : entry.verdict = none) :
    (diagnosing name).Safe (fun _ => At name c Q) (Prog.attempt fun w => (w.secrets n).map fun s =>
      ((), { w with secrets := Function.update w.secrets n (f s), trace := w.trace ++ [entry] }))
      w := by
  refine safe_quiet h fun v v' hv => ?_
  obtain ⟨s, -, he⟩ := Option.map_eq_some_iff.mp hv
  cases he
  exact ⟨rfl, entry, rfl, hnone, hverdict⟩

theorem safe_retire (hi : Diagnosed name w) (h : At name c Q w) :
    (diagnosing name).Safe (fun _ => At name c Q) (retirePrevious c) w := by
  have hret : (diagnosing name).Safe (fun _ => At name c Q) (pure () : Prog World Unit) w :=
    Setting.Safe.ret (stableAt_at c Q) h
  unfold retirePrevious
  split
  · split
    · exact hret
    · refine Setting.Safe.bind hi (safe_readAt h) fun existing w hi h => ?_
      split
      · split
        · exact safe_dispossess (f := fun _ => none) h rfl rfl
        · exact safe_dispossess (f := fun s => some s.orphan) h rfl rfl
      · exact Setting.Safe.ret (stableAt_at c Q) h
  · exact hret

/-- 受け取った CR の generation を書いた後では、それが最後に書いた generation である。 -/
theorem safe_write {existing : Option K8sSecret} {desired : K8sSecret} (h : At name c Q w)
    (hQ : ∀ la, Q la → ∀ a, la = some a → a ≤ c.generation) :
    (diagnosing name).Safe (fun _ => At name c (· = some c.generation))
      (writeSecret cfg c existing desired) w := by
  have hwrite : ∀ v v' e, Ages name w v → Diagnosed name v → v'.crs = v.crs →
      v'.trace = v.trace ++ [e] → e.appliedAt = some c.generation → e.verdict = none →
      Diagnosed name v' ∧ At name c (· = some c.generation) v' := by
    intro v v' e hv hi hcrs htrace happ hverdict
    obtain ⟨⟨cr₀, hcr₀, hg₀⟩, hq⟩ := stableAt_at c Q w v hv h
    have hlast : lastApplied v'.trace = some c.generation := by
      rw [htrace, lastApplied_append, happ, Option.some_or]
    refine ⟨⟨?_, fun cr hcr => ⟨?_, fun a ha => ?_, ?_⟩⟩, ⟨cr₀, by rw [hcrs]; exact hcr₀, hg₀⟩, hlast⟩
    · rw [htrace]
      exact justified_append hi.1 fun g hg => by rw [hverdict] at hg; cases hg
    · rw [hcrs] at hcr
      exact (hi.2 cr hcr).1
    · rw [hlast] at ha
      rw [hcrs, hcr₀] at hcr
      cases hcr
      cases ha
      exact hg₀
    · intro s c' hs hc' hsync hsettled g hg
      rw [hcrs] at hcr
      obtain ⟨a, ha, hle⟩ := (hi.2 cr hcr).2.2 s c' hs hc' hsync hsettled g hg
      exact ⟨c.generation, hlast, hle.trans (hQ _ hq a ha)⟩
  unfold writeSecret
  split
  · exact Setting.Safe.atomic (fun _ => stableAt_at c _) fun v hv hi =>
      hwrite v _ _ hv hi rfl rfl rfl rfl
  · exact Setting.Safe.atomic (fun _ => stableAt_at c _) fun v hv hi =>
      hwrite v _ _ hv hi rfl rfl rfl rfl

theorem safe_report {data : SortedMap String Bytes} (hname : c.name = name)
    (hi : Diagnosed name w) (h : At name c (· = some c.generation) w) :
    (diagnosing name).Safe (fun _ _ => True) (reportSynced cfg c data) w := by
  refine Setting.Safe.bind hi (safe_readAt h) fun stale w hi h => ?_
  refine Setting.Safe.bind hi (show (diagnosing name).Safe
    (fun _ => At name c (· = some c.generation)) _ w from ?_) fun _ w hi h => ?_
  · split
    · exact safe_publish _ h fun _ hla _ => hla
    · exact Setting.Safe.ret (stableAt_at c _) h
  refine Setting.Safe.bind hi (show (diagnosing name).Safe (fun condition w =>
    condition.observedGeneration = c.generation ∧ At name c (· = some c.generation) w) _ w from ?_)
    fun condition w hi h => ?_
  · refine Setting.Safe.read (fun _ u v hd h => ⟨h.1, stableAt_at c _ u v hd h.2⟩) fun v hv _ =>
      ⟨?_, stableAt_at c _ w v hv h⟩
    split <;> rfl
  refine Setting.Safe.bind hi (safe_readAt h.2) fun lastSynced w hi hat => ?_
  exact safe_patch hname hat rfl h.1 rfl fun _ hla _ => hla

/-! ## 二つの腕 -/

/-- 始めるときに分かっていること。AccessRevoked と診断するなら、この generation を書き終えている。 -/
def Informed (c : BunkerSecret) (la : Option Int) : Prop :=
  (∀ a, la = some a → a ≤ c.generation) ∧
    (previouslySynced c = true → specUnchangedSinceSync c = true → la = some c.generation)

/-- render の失敗が AccessRevoked と診断されるのは、前に同期していて generation が動いていないときである。 -/
theorem guard_of_settled {formats : Formats} {e : RenderError} {reason : Reason} {message : String}
    (hd : diagnose formats c e = .ok (reason, message)) (hr : reason.settled) :
    previouslySynced c = true ∧ specUnchangedSinceSync c = true := by
  have hother : ∀ r m, r ≠ .accessRevoked → r ≠ .synced → r ≠ .staleReplica →
      (Except.ok (r, m) : Except OperatorError (Reason × String)) ≠ .ok (reason, message) := by
    intro r m h₁ h₂ h₃ he
    obtain ⟨rfl, -⟩ := Prod.mk.inj (Except.ok.inj he)
    rcases hr with h | h | h
    · exact h₂ h
    · exact h₃ h
    · exact h₁ h
  cases e with
  | missingGroup group =>
    simp only [diagnose] at hd
    split at hd
    · next hguard => exact Bool.and_eq_true _ _ ▸ hguard
    · exact absurd hd (hother _ _ (by decide) (by decide) (by decide))
  | notYetSynced group name msg => cases hd
  | _ => exact absurd hd (hother _ _ (by decide) (by decide) (by decide))

/-- apply の腕は、診断を保つ。 -/
theorem safe_apply (hname : c.name = name) (hi : Diagnosed name w) (h : At name c (Informed c) w) :
    (diagnosing name).Safe (fun _ _ => True) (applyBunkerSecret cfg c) w := by
  have hend : ∀ (w : World) (r : Except OperatorError Action),
      (diagnosing name).Safe (fun _ _ => True) (pure r : Prog World _) w :=
    fun _ _ => Setting.Safe.ret (fun _ _ _ _ => trivial) trivial
  refine Setting.Safe.bind hi (safe_readAt h) fun synced w hi h => ?_
  split
  · refine Setting.Safe.bind hi (safe_readAt h) fun rendered w hi h => ?_
    cases rendered with
    | error e =>
      dsimp only
      unfold handleRenderError
      split
      · exact hend w _
      · next reason message hd =>
        refine Setting.Safe.bind hi (safe_degradeAt message hname hi h fun la hla hr => ?_)
          fun _ w _ _ => hend w _
        obtain ⟨hp, hu⟩ := guard_of_settled hd hr
        exact hla.2 hp hu
    | ok data =>
      refine Setting.Safe.bind hi (safe_readAt h) fun existing w hi h => ?_
      split
      · refine Setting.Safe.bind hi (safe_degradeAt _ hname hi h fun la hla hr => ?_)
          fun _ w _ _ => hend w _
        rcases hr with hr | hr | hr <;> cases hr
      · refine Setting.Safe.bind hi (show (diagnosing name).Safe (fun _ => At name c (Informed c)) _ w
          from Setting.Safe.orFail (fun _ => stableAt_at c _) (fun _ => trivial) fun _ _ => h)
          fun desired w hi h => ?_
        refine Setting.Safe.bind hi (safe_write h fun _ hla => hla.1) fun _ w hi h => ?_
        refine Setting.Safe.bind hi (safe_retire hi h) fun _ w hi h => ?_
        exact Setting.Safe.bind hi (safe_report hname hi h) fun _ w _ _ => hend w _
  · refine Setting.Safe.bind hi (safe_degradeAt _ hname hi h fun la hla hr => ?_)
      fun _ w _ _ => hend w _
    rcases hr with hr | hr | hr <;> cases hr

theorem safe_cleanup (hi : Diagnosed name w) (h : At name c Q w) :
    (diagnosing name).Safe (fun _ _ => True) (cleanupBunkerSecret c) w := by
  unfold cleanupBunkerSecret
  split
  · exact Setting.Safe.ret (fun _ _ _ _ => trivial) trivial
  · refine Setting.Safe.bind hi (safe_readAt h) fun existing w hi h => ?_
    refine Setting.Safe.bind hi (show (diagnosing name).Safe (fun _ => At name c Q) _ w from ?_)
      fun _ w _ _ => Setting.Safe.ret (fun _ _ _ _ => trivial) trivial
    split
    · exact safe_dispossess (f := fun s => some s.orphan) h rfl rfl
    · exact Setting.Safe.ret (stableAt_at c Q) h

/-! ## 経過 -/

variable (name) in
/-- 前に同期した CR の status が今の generation を記しているなら、それは書き終えた reconcile か
AccessRevoked の診断の残したものであるか、さもなければその generation はもう書き終えている。 -/
def Settled (w : World) : Prop :=
  ∀ cr ∈ w.crs name, previouslySynced cr = true → specUnchangedSinceSync cr = true →
    (∃ c ∈ cr.recordedCondition, c.reason.settled) ∨ lastApplied w.trace = some cr.generation

variable (name) in
/-- reconcile は `Settled` な状態から始める。 -/
def SettledStart (s : State) : Act → Prop
  | .reconcile => Settled name s.world
  | _ => True

/-- 始めるときに分かっていることは、`Settled` から従う。 -/
theorem informed_of_settled (hi : Diagnosed name w) (hs : Settled name w)
    (hcr : w.crs name = some c) : Informed c (lastApplied w.trace) := by
  obtain ⟨-, hle, htrust⟩ := hi.2 c hcr
  refine ⟨hle, fun hp hu => ?_⟩
  rcases hs c hcr hp hu with ⟨condition, hc, hr⟩ | happlied
  swap
  · exact happlied
  unfold previouslySynced at hp
  unfold specUnchangedSinceSync at hu
  unfold BunkerSecret.recordedCondition at hc
  cases hstatus : c.status with
  | none =>
    rw [hstatus] at hp
    cases hp
  | some s =>
    rw [hstatus] at hp hu hc
    obtain ⟨a, ha, hle'⟩ := htrust s condition hstatus hc (Option.isSome_iff_ne_none.mp hp) hr
      c.generation (by simpa using hu)
    rw [ha, le_antisymm (hle a ha) hle']

/-- spec や削除の印を書き換える動き。 -/
def Touches (f : BunkerSecret → BunkerSecret) : Prop :=
  ∀ cr, (f cr).name = cr.name ∧ (f cr).status = cr.status ∧ cr.generation ≤ (f cr).generation

theorem ages_mapCr {f : BunkerSecret → BunkerSecret} (hf : Touches f) (w : World) :
    Ages name w (w.mapCr name f) := by
  refine ⟨rfl, fun cr hcr => ⟨f cr, ?_, (hf cr).2⟩⟩
  show Function.update w.crs name _ name = some (f cr)
  rw [Function.update_self, hcr, Option.map_some]

theorem diagnosed_mapCr {f : BunkerSecret → BunkerSecret} (hf : Touches f)
    (hi : Diagnosed name w) : Diagnosed name (w.mapCr name f) := by
  refine ⟨hi.1, fun cr' hcr' => ?_⟩
  change Function.update w.crs name _ name = some cr' at hcr'
  rw [Function.update_self] at hcr'
  obtain ⟨cr, hcr, rfl⟩ := Option.map_eq_some_iff.mp hcr'
  obtain ⟨hn, hle, htrust⟩ := hi.2 cr hcr
  obtain ⟨hname, hstatus, hgen⟩ := hf cr
  refine ⟨hname.trans hn, fun a ha => (hle a ha).trans hgen, ?_⟩
  unfold Trusted
  rw [hstatus]
  exact htrust

/-- 運転の規則。 -/
theorem rules_settled : Rules cfg name uid (fun _ => diagnosing name)
    (fun _ _ _ => True) (SettledStart name) where
  view _ := rfl
  put _ := rfl
  escape _ _ := id
  client s c _ hi := by
    cases c with
    | edit spec =>
      have hf : Touches fun cr => { cr with spec := spec, generation := cr.generation + 1 } :=
        fun cr => ⟨rfl, rfl, show cr.generation ≤ cr.generation + 1 by omega⟩
      exact ⟨diagnosed_mapCr hf hi, ages_mapCr hf _⟩
    | delete =>
      have hf : Touches fun cr => { cr with deleting := true } := fun _ => ⟨rfl, rfl, le_refl _⟩
      exact ⟨diagnosed_mapCr hf hi, ages_mapCr hf _⟩
    | secret n stored =>
      unfold World.client
      dsimp only
      split
      · exact ⟨hi, .refl _⟩
      · exact ⟨hi, .refl _⟩
    | sync mirror lastSynced disconnectedFor => exact ⟨hi, .refl _⟩
    | tick now recorderUp => exact ⟨hi, .refl _⟩
  apply w cr hok hi hcr _ :=
    ⟨hi, safe_apply (hi.2 cr hcr).1 hi ⟨⟨cr, hcr, le_refl _⟩, informed_of_settled hi hok hcr⟩⟩
  cleanup w cr _ hi hcr _ :=
    ⟨hi, safe_cleanup (Q := fun _ => True) hi ⟨⟨cr, hcr, le_refl _⟩, trivial⟩⟩
  leave w t a _ _ hi := hi
  vanish w hi := by
    refine ⟨hi.1, fun cr hcr => ?_⟩
    change Function.update w.crs name none name = some cr at hcr
    rw [Function.update_self] at hcr
    cases hcr

theorem Fresh.diagnosed {w : World} (h : Fresh name uid w) : Diagnosed name w := by
  refine ⟨fun earlier e later heq => ?_, fun cr hcr => ⟨(h.metadata cr hcr).1, fun a ha => ?_, ?_⟩⟩
  · rw [h.trace] at heq
    exact absurd heq.symm (by simp)
  · rw [h.trace] at ha
    cases ha
  · intro s c hs
    rw [h.status cr hcr] at hs
    cases hs

/-- **AccessRevoked は、最後に同期した spec についてだけ診断される。**
できたばかりの CR から、どこで打ち切られる経過でも、reconcile が `Settled` な状態から始まっていれば、
AccessRevoked はその generation を書き終えた後にだけ知らされ、
今の generation を書き終えていない CR に group が無いことは MissingGroup と診断される。 -/
theorem access_revoked_only_after_sync (cfg : Config) (name uid : String) (w : World)
    (acts : List Act) (hfresh : Fresh name uid w)
    (hsettled : State.Follows cfg name uid (SettledStart name) ⟨w, none⟩ acts) :
    Justified (State.exec cfg name uid ⟨w, none⟩ acts).world.trace ∧
    (Settled name (State.exec cfg name uid ⟨w, none⟩ acts).world →
      ∀ cr, (State.exec cfg name uid ⟨w, none⟩ acts).world.crs name = some cr →
        lastApplied (State.exec cfg name uid ⟨w, none⟩ acts).world.trace ≠ some cr.generation →
          ∀ group, ∃ message,
            diagnose cfg.formats cr (.missingGroup group) = .ok (.missingGroup, message)) := by
  have hstart : (State.mk w none).Under (fun _ => diagnosing name) fun _ _ _ => True :=
    ⟨hfresh.diagnosed, fun _ h => nomatch h⟩
  obtain ⟨hi, -⟩ := State.under_exec rules_settled hsettled hstart
  refine ⟨hi.1, fun hs cr hcr hne group => ?_⟩
  have hinformed := informed_of_settled hi hs hcr
  simp only [diagnose]
  split
  · next hguard =>
    obtain ⟨hp, hu⟩ := (Bool.and_eq_true _ _).mp hguard
    exact absurd (hinformed.2 hp hu) hne
  · exact ⟨_, rfl⟩

/-! ## 消えた group と、無い group -/

instance (s : State) : (a : Act) → Decidable (SettledStart name s a)
  | .reconcile => inferInstanceAs (Decidable (∀ cr ∈ s.world.crs name, _ → _ → (∃ c ∈ _, _) ∨ _))
  | .client _ | .advance | .stop => .isTrue trivial

/-- 一つの group を並べる spec。 -/
def fanOut (group : String) : BunkerSecretSpec := { sampleSpec "a" with dataFrom := [.group group []] }

/-- group `g` だけを持つ mirror。 -/
def mirrorWithGroup : Db := ((Store.applyGroupSync .empty "r" { name := "g" } []).map (·.2)).getD .empty

/-- `g` を並べて書いた後、`g` が mirror から消え、reconcile を二度行う。 -/
def revoked : List Act :=
  .client (.edit (fanOut "g")) :: .client (.sync mirrorWithGroup (some 0) none) :: reconcileFor 9 ++
    .client (.sync .empty (some 0) none) :: reconcileFor 6 ++ reconcileFor 6

theorem access_revoked_only_after_sync_sample :
    (State.exec sampleConfig "app" "u" ⟨sampleWorld, none⟩ revoked).world.trace.getLast?.bind
      Entry.verdict = some (.accessRevoked, 2) ∧
    Justified (State.exec sampleConfig "app" "u" ⟨sampleWorld, none⟩ revoked).world.trace :=
  ⟨by decide +kernel, (access_revoked_only_after_sync sampleConfig "app" "u" sampleWorld revoked
    fresh_sampleWorld (by decide +kernel)).1⟩

/-- 書き終えた後、無い group を並べる spec に書き換え、reconcile を二度行う。 -/
def editedToMissing : List Act :=
  reconcileFor 9 ++ .client (.edit (fanOut "ghost")) :: reconcileFor 6 ++ reconcileFor 6

/-- 書き換えた後の generation は一度も書いていないのに、二度目には AccessRevoked と知らされる。 -/
theorem repeated_reconcile_reports_revoked :
    Fresh "app" "u" sampleWorld ∧
    lastApplied (State.exec sampleConfig "app" "u" ⟨sampleWorld, none⟩ editedToMissing).world.trace =
      some 1 ∧
    (State.exec sampleConfig "app" "u" ⟨sampleWorld, none⟩ editedToMissing).world.trace.getLast?.bind
      Entry.verdict = some (.accessRevoked, 2) :=
  ⟨fresh_sampleWorld, by decide +kernel, by decide +kernel⟩

end Operator

end SecretBunker
