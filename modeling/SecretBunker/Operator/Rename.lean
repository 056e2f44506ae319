import SecretBunker.Operator.Conduct
import SecretBunker.Operator.Retain

/-!
# 改名の後に古い Secret を残さないこと

`spec.target.name` を変えると、次の reconcile は新しい名前の Secret を書き、`status.targetSecretName` に
残る前の Secret を片付ける。前の名前の覚えはこの status の field 一つで、しかも最後に書かれる。Secret を
書いてから status を書くまでに reconcile が止まり、その間にもう一度改名されると、書いた Secret の名前は
どこにも残らない。

改名や打ち切りが書いた Secret の名前を失わせない経過では、書き終えた reconcile の後に CR を指す Secret は
target だけである。始まりで CR を指す Secret が target か status に残る target であることは `Traced` が
言うので、ここでは一つの reconcile の間のことだけを調べる。
-/

namespace SecretBunker

open Interleaving Ordered

namespace Operator

variable {cfg : Config} {name uid : String}

/-! ## 書き終えた reconcile -/

/-- 最後の足跡が知らせた理由。 -/
def lastReason (trace : List Entry) : Option Reason :=
  trace.getLast?.bind fun
    | .reported status _ => status.conditions.head?.map (·.reason)
    | _ => none

/-- render した中身を書き終えた reconcile だけが知らせる理由。 -/
def Reason.served : Reason → Bool
  | .synced | .staleReplica => true
  | _ => false

/-- Apply の腕が、render に成功し Conflict にもならずに `Ok` を返したところの CR。 -/
def State.served (s : State) : Option BunkerSecret :=
  match s.task with
  | some ⟨.apply, cr, .ret (.ok _)⟩ =>
    if (lastReason s.world.trace).any Reason.served then some cr else none
  | _ => none

/-! ## 一つの reconcile の世界 -/

variable (uid) in
/-- 名前ごとの、CR を指す ownerReference。 -/
def owners (w : World) : String → Option (Field OwnerReference) := fun n => ownerOf uid (w.secrets n)

variable (uid) in
/-- ほかの client は、CR を指す ownerReference にも operator の足跡にも触れない。 -/
def serving : Setting World World where
  view := id
  put := fun _ w => w
  put_view := id_eq
  inv := fun _ => True
  rely := fun w w' => owners uid w' = owners uid w ∧ w'.trace = w.trace
  refl := fun _ => ⟨rfl, rfl⟩
  trans := fun h h' => ⟨h'.1.trans h.1, h'.2.trans h.2⟩
  mayFail := True

/-- CR を指すのは、受け取った CR の target か、その status に残る target だけである。 -/
def Bound (c : BunkerSecret) (o : String → Option (Field OwnerReference)) : Prop :=
  ∀ n f, o n = some f →
    f.value.kind = "BunkerSecret" ∧ (n = c.targetName ∨ c.recordedTarget = some n)

/-- CR を指すのは target だけである。 -/
def Sole (c : BunkerSecret) (o : String → Option (Field OwnerReference)) : Prop :=
  ∀ n, o n ≠ none ↔ n = c.targetName

variable {c : BunkerSecret} {w : World}

theorem Bound.sole {o : String → Option (Field OwnerReference)} (h : Bound c o)
    (htarget : o c.targetName ≠ none)
    (hprev : ∀ prev, c.recordedTarget = some prev → prev ≠ c.targetName → o prev = none) :
    Sole c o := by
  refine fun n => ⟨fun hn => ?_, fun hn => hn ▸ htarget⟩
  obtain ⟨f, hf⟩ := Option.ne_none_iff_exists'.mp hn
  by_contra hne
  rcases (h n f hf).2 with heq | hrec
  · exact hne heq
  · exact hn (hprev n hrec hne)

theorem owners_update (w : World) (n : String) (s : Option StoredSecret) (trace : List Entry) :
    owners uid { w with secrets := Function.update w.secrets n s, trace } =
      Function.update (owners uid w) n (ownerOf uid s) := by
  funext n'
  show ownerOf uid (Function.update w.secrets n s n') = _
  by_cases hn : n' = n
  · rw [hn, Function.update_self, Function.update_self]
  · rw [Function.update_of_ne hn, Function.update_of_ne hn]
    rfl

theorem stableAt_owners (Q : (String → Option (Field OwnerReference)) → Prop) :
    (serving uid).StableAt fun w => Q (owners uid w) := by
  intro w w' hr h
  show Q (owners uid w')
  rw [hr.1]
  exact h

/-- Secret に触れない手続きは、所有について言えることを変えない。 -/
theorem safe_untouched {α : Type} {p : Prog World α}
    {Q : (String → Option (Field OwnerReference)) → Prop} (hk : p.Keeps World.ledger)
    (h : Q (owners uid w)) : (serving uid).Safe (fun _ w => Q (owners uid w)) p w := by
  refine Setting.Safe.of_keeps hk trivial (stableAt_owners Q) (fun v update _ hQ hsame => ?_) h
  refine ⟨trivial, ?_⟩
  show Q (owners uid (update v))
  unfold owners at hQ ⊢
  rw [show (update v).secrets = v.secrets from (Prod.mk.inj hsame).1]
  exact hQ

/-! ## 止まる腕 -/

theorem lastReason_append (trace : List Entry) (status : BunkerSecretStatus) (written : Bool) :
    lastReason (trace ++ [.reported status written]) = status.conditions.head?.map (·.reason) := by
  simp [lastReason]

theorem reports_patchStatus (c : BunkerSecret) (status : BunkerSecretStatus) (w : World) :
    (serving uid).Safe (fun _ w => lastReason w.trace = status.conditions.head?.map (·.reason))
      (patchStatus c status) w := by
  have hstable : (serving uid).StableAt fun w =>
      lastReason w.trace = status.conditions.head?.map (·.reason) := by
    intro w w' hr h
    show lastReason w'.trace = _
    rw [hr.2]
    exact h
  unfold patchStatus
  split
  · exact Setting.Safe.atomic (fun _ => hstable) fun v _ _ =>
      ⟨trivial, lastReason_append v.trace status false⟩
  · refine Setting.Safe.attempt (fun _ => hstable) (fun _ _ _ _ => trivial) ?_
    intro v _ v' _ _ hstep
    obtain ⟨stored, -, he⟩ := Option.map_eq_some_iff.mp hstep
    cases he
    exact ⟨trivial, lastReason_append v.trace status true⟩

theorem safe_any {α : Type} (p : Prog World α) (w : World) :
    (serving uid).Safe (fun _ _ => True) p w := by
  induction p generalizing w with
  | ret a => exact fun _ _ _ => trivial
  | fail => trivial
  | act update next ih => exact fun v _ _ => Or.inr ⟨trivial, ih v _⟩

theorem reports_degrade (c : BunkerSecret) (reason : Reason) (message : String) (w : World) :
    (serving uid).Safe (fun _ w => lastReason w.trace = some reason) (degrade c reason message) w :=
  Setting.Safe.bind trivial (safe_any _ w) fun _ w _ _ =>
    Setting.Safe.bind trivial (safe_any _ w) fun now w _ _ =>
      reports_patchStatus c (statusWith c (readyCondition c now false reason message)) w

theorem served_diagnose {formats : Formats} {e : RenderError} {reason : Reason} {message : String}
    (h : diagnose formats c e = .ok (reason, message)) : reason.served = false := by
  cases e with
  | missingGroup group =>
    simp only [diagnose] at h
    split at h
    · cases h
      rfl
    · cases h
      rfl
  | notYetSynced => cases h
  | _ =>
    cases h
    rfl

variable (uid) in
/-- 書き終えて `Ok` を返したなら、CR を指すのは target だけである。 -/
def Tidy (c : BunkerSecret) (r : Except OperatorError Action) (w : World) : Prop :=
  ∀ a, r = .ok a → (lastReason w.trace).any Reason.served = true → Sole c (owners uid w)

theorem stableAt_tidy (c : BunkerSecret) (r : Except OperatorError Action) :
    (serving uid).StableAt (Tidy uid c r) := by
  intro w w' hr h
  unfold Tidy
  rw [hr.1, hr.2]
  exact h

/-- 失敗を知らせて終わる腕。 -/
theorem tidy_degrade {reason : Reason} (hr : reason.served = false) (message : String)
    (r : Except OperatorError Action) (w : World) :
    (serving uid).Safe (Tidy uid c) (degrade c reason message >>= fun _ => pure r) w := by
  refine Setting.Safe.bind trivial (reports_degrade c reason message w) fun _ w _ hlast => ?_
  refine Setting.Safe.ret (stableAt_tidy c r) fun _ _ hserved => ?_
  rw [hlast, Option.any_some, hr] at hserved
  cases hserved

/-! ## 書く腕 -/

theorem ownerOf_ne_none_of_ownedBy (hu : c.uid = some uid) {s : StoredSecret}
    {nameSpace n : String} (h : ownedBy (s.read nameSpace n) c = true) :
    ownerOf uid (some s) ≠ none := by
  intro hnone
  rw [ownedBy_read hu, hnone] at h
  cases h

/-- 見つかった Secret が CR の持ち物なら、CR を指している。 -/
theorem safe_getTarget (hu : c.uid = some uid) (hb : Bound c (owners uid w)) :
    (serving uid).Safe (fun existing w => Bound c (owners uid w) ∧
      (existing.any (fun s => !ownedBy s c) = false → existing ≠ none →
        owners uid w c.targetName ≠ none)) (getSecret c c.targetName) w := by
  refine Setting.Safe.read (fun existing => stableAt_owners fun o => Bound c o ∧
    (existing.any (fun s => !ownedBy s c) = false → existing ≠ none → o c.targetName ≠ none)) ?_
  intro v hv _
  refine ⟨stableAt_owners (Bound c) w v hv hb, fun howned hsome => ?_⟩
  change Option.any (fun s => !ownedBy s c) ((v.secrets c.targetName).map _) = false at howned
  obtain ⟨k, hk⟩ := Option.ne_none_iff_exists'.mp hsome
  obtain ⟨s, hs, rfl⟩ := Option.map_eq_some_iff.mp hk
  change v.secrets c.targetName = some s at hs
  rw [hs, Option.map_some, Option.any_some, Bool.not_eq_false'] at howned
  show ownerOf uid (v.secrets c.targetName) ≠ none
  rw [hs]
  exact ownerOf_ne_none_of_ownedBy hu howned

theorem hash_buildSecret {prim : Primitives} {data : SortedMap String Bytes} {desired : K8sSecret}
    (h : buildSecret prim c data = some desired) :
    desired.annotations.get? hashAnnotation ≠ none := by
  obtain ⟨u, -, rfl⟩ := Option.map_eq_some_iff.mp h
  show (SortedMap.empty.insert hashAnnotation (contentHash prim data)).get? hashAnnotation ≠ none
  rw [SortedMap.get?_insert, if_pos rfl]
  exact Option.some_ne_none _

/-- 書いても書かなくても、target は CR を指す。 -/
theorem bound_writeSecret {data : SortedMap String Bytes} {existing : Option K8sSecret}
    {desired : K8sSecret} (hu : c.uid = some uid)
    (hbuilt : buildSecret cfg.prim c data = some desired) (hb : Bound c (owners uid w))
    (hexisting : existing ≠ none → owners uid w c.targetName ≠ none) :
    (serving uid).Safe (fun _ w => Bound c (owners uid w) ∧ owners uid w c.targetName ≠ none)
      (writeSecret cfg c existing desired) w := by
  let Q : (String → Option (Field OwnerReference)) → Prop :=
    fun o => Bound c o ∧ o c.targetName ≠ none
  unfold writeSecret
  split
  · next hsame =>
    have hsome : existing ≠ none := by
      rintro rfl
      exact hash_buildSecret hbuilt hsame.symm
    exact safe_untouched (Q := Q) (Prog.Obeys.atomic fun w => ledger_record w rfl)
      ⟨hb, hexisting hsome⟩
  · refine Setting.Safe.atomic (fun _ => stableAt_owners Q) fun v hv _ => ⟨trivial, ?_⟩
    obtain ⟨f, hf, hkind⟩ := ownerOf_apply hu hbuilt (v.secrets desired.name)
    refine (owners_update v desired.name (some (StoredSecret.apply (v.secrets desired.name) desired))
      (v.trace ++ [.applied c.generation desired])).symm ▸ ?_
    rw [hf, name_buildSecret hbuilt, hv.1, Function.update_self]
    refine ⟨fun n g hg => ?_, Option.some_ne_none f⟩
    by_cases hn : n = c.targetName
    · rw [hn, Function.update_self] at hg
      cases hg
      exact ⟨hkind, Or.inl hn⟩
    · rw [Function.update_of_ne hn] at hg
      exact hb n g hg

/-- 前の target から所有を外す動作。 -/
theorem sole_disown {prev : String} {f : StoredSecret → Option StoredSecret} {entry : Entry}
    (hf : ∀ s, ownerOf uid (f s) = none) (hb : Bound c (owners uid w))
    (ht : owners uid w c.targetName ≠ none) (hprev : c.recordedTarget = some prev)
    (hne : prev ≠ c.targetName) :
    (serving uid).Safe (fun _ w => Sole c (owners uid w))
      (Prog.attempt fun w => (w.secrets prev).map fun s => ((), { w with
        secrets := Function.update w.secrets prev (f s), trace := w.trace ++ [entry] })) w := by
  refine Setting.Safe.attempt (fun _ => stableAt_owners (Sole c)) (fun _ _ _ _ => trivial) ?_
  intro v _ v' hv _ hstep
  obtain ⟨s, -, he⟩ := Option.map_eq_some_iff.mp hstep
  cases he
  refine ⟨trivial, (owners_update v prev (f s) _).symm ▸ ?_⟩
  rw [hf, hv.1]
  refine Bound.sole (fun n g hg => ?_) ?_ fun p hp hpne => ?_
  · by_cases hn : n = prev
    · rw [hn, Function.update_self] at hg
      cases hg
    · rw [Function.update_of_ne hn] at hg
      exact hb n g hg
  · rw [Function.update_of_ne hne.symm]
    exact ht
  · rw [hprev] at hp
    cases hp
    exact Function.update_self ..

/-- 前の target の後始末の後は、CR を指すのは target だけである。 -/
theorem sole_retirePrevious (hu : c.uid = some uid) (hb : Bound c (owners uid w))
    (ht : owners uid w c.targetName ≠ none) :
    (serving uid).Safe (fun _ w => Sole c (owners uid w)) (retirePrevious c) w := by
  have hsole : (∀ prev, c.recordedTarget = some prev → prev ≠ c.targetName →
      owners uid w prev = none) → (serving uid).Safe (fun _ w => Sole c (owners uid w)) (pure ()) w :=
    fun h => Setting.Safe.ret (stableAt_owners (Sole c)) (hb.sole ht h)
  unfold retirePrevious
  split
  · next prev hprev =>
    split
    · next heq =>
      refine hsole fun p hp hne => ?_
      rw [hprev] at hp
      cases hp
      exact absurd heq hne
    · next hne =>
      refine Setting.Safe.bind trivial (show (serving uid).Safe (fun existing w =>
        (Bound c (owners uid w) ∧ owners uid w c.targetName ≠ none) ∧
          (existing.any (ownedBy · c) = false → owners uid w prev = none)) _ w from ?_)
        fun existing w _ h => ?_
      · refine Setting.Safe.read (fun existing => stableAt_owners fun o =>
          (Bound c o ∧ o c.targetName ≠ none) ∧
            (existing.any (ownedBy · c) = false → o prev = none)) fun v hv _ => ?_
        rw [hv.1]
        refine ⟨⟨hb, ht⟩, fun hno => ?_⟩
        change Option.any (ownedBy · c) ((v.secrets prev).map _) = false at hno
        rw [← hv.1]
        show ownerOf uid (v.secrets prev) = none
        cases hsec : v.secrets prev with
        | none => rfl
        | some s =>
          rw [hsec, Option.map_some, Option.any_some, ownedBy_read hu] at hno
          -- CR を指す参照は BunkerSecret のものなので、見落とされることはない
          cases hf : ownerOf uid (some s) with
          | none => rfl
          | some f =>
            have hown : owners uid w prev = some f := by
              rw [← hv.1]
              show ownerOf uid (v.secrets prev) = some f
              rw [hsec, hf]
            simp [hf, (hb prev f hown).1] at hno
      · obtain ⟨⟨hb, ht⟩, hnone⟩ := h
        split
        · split
          · exact sole_disown (fun _ => rfl) hb ht hprev hne
          · exact sole_disown (f := fun s => some s.orphan) (fun _ => rfl) hb ht hprev hne
        · next hno =>
          refine Setting.Safe.ret (stableAt_owners (Sole c)) (hb.sole ht fun p hp _ => ?_)
          rw [hprev] at hp
          cases hp
          exact hnone (Bool.not_eq_true _ ▸ hno)
  · next hnone =>
    refine hsole fun p hp _ => ?_
    rw [hnone] at hp
    cases hp

/-- apply を終えれば、古い Secret は残らない。 -/
theorem tidy_applyRendered {data : SortedMap String Bytes} (hu : c.uid = some uid)
    (hb : Bound c (owners uid w)) :
    (serving uid).Safe (Tidy uid c) (applyRendered cfg c data) w := by
  refine Setting.Safe.bind trivial (safe_getTarget hu hb) fun existing w _ h => ?_
  split
  · exact tidy_degrade rfl _ _ w
  · next howned =>
    obtain ⟨hb, hexisting⟩ := h
    refine Setting.Safe.bind trivial (show (serving uid).Safe (fun desired w =>
      buildSecret cfg.prim c data = some desired ∧ Bound c (owners uid w) ∧
        (existing ≠ none → owners uid w c.targetName ≠ none)) _ w from Setting.Safe.orFail
        (fun desired => stableAt_owners fun o => buildSecret cfg.prim c data = some desired ∧
          Bound c o ∧ (existing ≠ none → o c.targetName ≠ none)) (fun _ => trivial)
        fun desired hbuilt => ⟨hbuilt, hb, hexisting (Bool.not_eq_true _ ▸ howned)⟩)
      fun desired w _ h => ?_
    obtain ⟨hbuilt, hb, hexisting⟩ := h
    refine Setting.Safe.bind trivial (bound_writeSecret hu hbuilt hb hexisting) fun _ w _ h => ?_
    refine Setting.Safe.bind trivial (sole_retirePrevious hu h.1 h.2) fun _ w _ h => ?_
    refine Setting.Safe.bind trivial (safe_untouched (keeps_reportSynced unseen_ledger cfg c data) h)
      fun _ w _ h => ?_
    exact Setting.Safe.ret (stableAt_tidy c _) fun _ _ _ => h

theorem tidy_applyBunkerSecret (hu : c.uid = some uid) (hb : Bound c (owners uid w)) :
    (serving uid).Safe (Tidy uid c) (applyBunkerSecret cfg c) w := by
  refine Setting.Safe.bind trivial (safe_untouched (keeps_read _) hb) fun synced w _ hb => ?_
  split
  · refine Setting.Safe.bind trivial (safe_untouched (keeps_read _) hb) fun rendered w _ hb => ?_
    cases rendered with
    | ok data => exact tidy_applyRendered hu hb
    | error e =>
      dsimp only
      unfold handleRenderError
      split
      · exact Setting.Safe.ret (stableAt_tidy c _) fun _ h => nomatch h
      · next hd => exact tidy_degrade (served_diagnose hd) _ _ w
  · exact tidy_degrade rfl _ _ w

/-! ## 経過 -/

variable (name uid) in
/-- deletionPolicy は Delete のままで、ほかの client は CR を指す ownerReference に触れない。 -/
def Undisturbed (s : State) : Act → Prop
  | .client (.secret n stored) => ownerOf uid stored = ownerOf uid (s.world.secrets n)
  | .reconcile => ∀ cr ∈ s.world.crs name, cr.spec.deletionPolicy = .delete
  | _ => True

instance (s : State) : (a : Act) → Decidable (Undisturbed name uid s a)
  | .client (.secret ..) => inferInstanceAs (Decidable (_ = _))
  | .client (.edit _) | .client .delete | .client (.sync ..) | .client (.tick ..) => .isTrue trivial
  | .reconcile => inferInstanceAs (Decidable (∀ cr ∈ s.world.crs name, _))
  | .advance | .stop => .isTrue trivial

variable (name uid) in
/-- 書いた Secret の名前を、改名や打ち切りが失わせない。 -/
def Steady (s : State) (a : Act) : Prop :=
  Orderly name uid s a ∧ Undisturbed name uid s a

instance (s : State) (a : Act) : Decidable (Steady name uid s a) :=
  inferInstanceAs (Decidable (_ ∧ _))

/-- 走っている Apply の腕は、書き終えて `Ok` を返すときには前の target を片付けている。 -/
def State.Tidying (uid : String) (s : State) : Prop :=
  ∀ t, s.task = some t → t.arm = .apply → (serving uid).Safe (Tidy uid t.cr) t.rest s.world

theorem owners_client {s : State} {c : Client} (h : Undisturbed name uid s (.client c)) :
    owners uid (s.world.client name uid c) = owners uid s.world ∧
      (s.world.client name uid c).trace = s.world.trace := by
  cases c with
  | secret n stored =>
    unfold World.client
    dsimp only
    split
    · refine ⟨?_, rfl⟩
      refine (owners_update s.world n stored s.world.trace).trans ?_
      rw [show ownerOf uid stored = owners uid s.world n from h, Function.update_eq_self]
    · exact ⟨rfl, rfl⟩
  | _ => exact ⟨rfl, rfl⟩

/-- 乱されない一歩は、片付けを保つ。 -/
theorem tidying_step {s : State} {a : Act} (hsteady : Undisturbed name uid s a)
    (htraced : Traced name uid (heldBy s.running) s.world) (h : s.Tidying uid) :
    (s.step cfg name uid a).Tidying uid := by
  cases a with
  | client c => exact fun t ht harm => (h t ht harm).stable (owners_client hsteady)
  | reconcile =>
    obtain ⟨w, task⟩ := s
    cases task with
    | some t => exact h
    | none =>
      cases hcr : w.crs name with
      | none =>
        simp only [State.step, hcr]
        exact h
      | some cr =>
        simp only [State.step, hcr]
        intro t ht harm
        cases ht
        obtain ⟨-, hu, howned⟩ := htraced cr hcr
        have hbound : Bound cr (owners uid w) := fun n f hf =>
          ⟨(howned n f hf).1, (howned n f hf).2.imp id (Or.resolve_right · (Option.some_ne_none n).symm)⟩
        unfold Task.begin at harm ⊢
        split
        · next hd =>
          rw [if_pos hd] at harm
          cases harm
        · exact tidy_applyBunkerSecret hu hbound
  | advance =>
    obtain ⟨w, task⟩ := s
    cases task with
    | none => exact h
    | some t =>
      obtain ⟨arm, cr, rest⟩ := t
      cases rest with
      | act update next =>
        intro t ht harm
        cases ht
        exact ((h _ rfl harm w ((serving uid).refl w) trivial).resolve_left id).2
      | fail =>
        intro t ht
        cases ht
      | ret result =>
        intro t ht
        cases arm <;> cases result <;> cases ht
  | stop =>
    intro t ht
    cases ht

theorem tidying_exec {s : State} {acts : List Act}
    (hsteady : State.Follows cfg name uid (Steady name uid) s acts)
    (hunder : s.Under (fun k => tracing name uid (heldBy k))
      fun arm c w => arm = .cleanup → c.spec.deletionPolicy = .retain → Unowned uid w)
    (h : s.Tidying uid) : (s.exec cfg name uid acts).Tidying uid := by
  induction acts generalizing s with
  | nil => exact h
  | cons a rest ih =>
    exact ih hsteady.2 (State.under_step rules_orderly a hsteady.1.1 hunder)
      (tidying_step hsteady.1.2 hunder.1 h)

/-- **書いた Secret の名前を失わなければ、古い Secret は残らない。** できたばかりの CR から、どこで打ち切られる
経過でも、改名と打ち切りが条件を満たして進めば、render に成功し Conflict にもならずに `apply_bunker_secret` が
`Ok` を返したとき、CR を指す ownerReference を持つ Secret は target だけである。 -/
theorem rename_leaves_no_old_secret (cfg : Config) (name uid : String) (w : World) (acts : List Act)
    (hfresh : Fresh name uid w)
    (hsteady : State.Follows cfg name uid (Steady name uid) ⟨w, none⟩ acts)
    (cr : BunkerSecret) (hserved : (State.exec cfg name uid ⟨w, none⟩ acts).served = some cr)
    (n : String) :
    ownerOf uid ((State.exec cfg name uid ⟨w, none⟩ acts).world.secrets n) ≠ none ↔
      n = cr.targetName := by
  have htidying := tidying_exec hsteady ⟨hfresh.traced, fun _ h => nomatch h⟩ fun _ h => nomatch h
  unfold State.served at hserved
  split at hserved
  · next a ht =>
    split at hserved
    · next hlast =>
      cases hserved
      exact htidying _ ht rfl _ ((serving uid).refl _) trivial a rfl hlast n
    · cases hserved
  · cases hserved

/-- 名前だけを決める、Delete の spec。 -/
def deleteSpec (target : String) : BunkerSecretSpec :=
  { sampleSpec target with deletionPolicy := .delete }

/-- 同期の済んだ replica と、できたばかりの Delete の CR。 -/
def deleteWorld : World :=
  { sampleWorld with
    crs := fun n => if n = "app" then some { sampleCr with spec := deleteSpec "a" } else none }

theorem fresh_deleteWorld : Fresh "app" "u" deleteWorld where
  metadata cr hcr := by
    obtain rfl : { sampleCr with spec := deleteSpec "a" } = cr := Option.some.inj hcr
    exact ⟨rfl, rfl⟩
  status cr hcr := by
    obtain rfl : { sampleCr with spec := deleteSpec "a" } = cr := Option.some.inj hcr
    rfl
  unowned _ := rfl
  trace := rfl

/-- `a` に書き終えてから、`b` へ改名する。 -/
def renamedInTurn : List Act :=
  reconcileFor 9 ++ .client (.edit (deleteSpec "b")) :: reconcileFor 10

theorem rename_leaves_no_old_secret_sample :
    ownerOf "u" ((State.exec sampleConfig "app" "u" ⟨deleteWorld, none⟩
      renamedInTurn).world.secrets "a") ≠ none ↔ "a" = "b" :=
  rename_leaves_no_old_secret sampleConfig "app" "u" deleteWorld renamedInTurn fresh_deleteWorld
    (by decide +kernel) ⟨"prod", "app", some "u", 2, false, deleteSpec "b", some
      ⟨[⟨true, .synced, "", 0, 1⟩], some 0, some 1, [], some "a"⟩⟩ (by decide +kernel) "a"

/-- Secret `a` を書いた後、status を書く前に止まり、`b` へ改名してから reconcile する。 -/
def renamedUnrecorded : List Act :=
  reconcileFor 7 ++ .stop :: .client (.edit (deleteSpec "b")) :: reconcileFor 8

/-- reconcile は `b` を書き終えて `Ok` を返すが、Secret `a` も CR を指したままである。 -/
theorem unrecorded_target_left_behind :
    Fresh "app" "u" deleteWorld ∧
    ((State.exec sampleConfig "app" "u" ⟨deleteWorld, none⟩ renamedUnrecorded).served.map fun cr =>
      (cr.targetName, cr.spec.deletionPolicy)) = some ("b", .delete) ∧
    ownerOf "u" ((State.exec sampleConfig "app" "u" ⟨deleteWorld, none⟩
      renamedUnrecorded).world.secrets "a") ≠ none :=
  ⟨fresh_deleteWorld, by decide +kernel, by decide +kernel⟩

end Operator

end SecretBunker
