import SecretBunker.Operator.Conduct

/-!
# 読めなくなった Secret は凍る

mirror の group が消え、secret が消え、復号できず、同期が済んでいなくても、そのために operator が
Secret を書き換えたり消したりすることはない。Secret に触れる動作は `Permitted` の三つの形に限られ、
それは経過のどこで打ち切られても変わらない。
-/

namespace SecretBunker

open Interleaving Ordered

namespace Operator

/-- これまでの動作 `steps` の下で、reconcile の動作が Secret にしてよいこと。 -/
inductive Permitted (cfg : Config) (cr : BunkerSecret) (steps : List (World × World))
    (w w' : World) : Prop
  /-- Secret を書く API 呼び出しをしない。 -/
  | quiet (h : w'.ledger = w.ledger)
  /-- render の返した中身を、そのまま target に書く。 -/
  | write {data : SortedMap String Bytes} {desired : K8sSecret} (hr : RenderedAs cfg cr data steps)
      (hd : buildSecret cfg.prim cr data = some desired) (h : w'.secrets = written cr desired w)
  /-- 改名の前の target で、CR の持ち物であるものを片付ける。新しい target はもう揃っている。 -/
  | retire {data : SortedMap String Bytes} {desired : K8sSecret} {prev : String} {s : StoredSecret}
      (hr : RenderedAs cfg cr data steps) (hd : buildSecret cfg.prim cr data = some desired)
      (hs : Delivered cfg cr desired steps) (hprev : cr.recordedTarget = some prev)
      (hne : prev ≠ cr.targetName) (hstored : w.secrets prev = some s)
      (howned : ownedBy (s.read cr.nameSpace prev) cr = true)
      (h : w'.secrets = retired cr prev s w)

/-- ほかに Secret を書く者のいない作法。 -/
def solitary (cfg : Config) (cr : BunkerSecret) : Manners World where
  rely := fun _ v w => w.secrets = v.secrets
  guar := Permitted cfg cr

theorem tenets_solitary (cfg : Config) (cr : BunkerSecret) : Tenets cfg cr (solitary cfg cr) where
  quiet := .quiet
  write := fun hr hd _ _ h => .write hr hd h
  retire := by
    rintro steps update g w data desired prev s hr hd hs hprev hne ⟨s', hs', ho⟩ hrely hstored h
    change w.secrets = g.secrets at hrely
    rw [← hrely, hstored] at hs'
    cases hs'
    exact .retire hr hd hs hprev hne hstored ho h

/-! ## 経過 -/

/-- 経過と、今の reconcile がこれまでに行った動作の前後。 -/
structure Trail where
  state : State
  steps : List (World × World)

namespace Trail

variable (cfg : Config) (name uid : String)

def step (t : Trail) (a : Act) : Trail where
  state := t.state.step cfg name uid a
  steps :=
    match a with
    | .advance => t.steps ++ [(t.state.world, (t.state.advance name).world)]
    | .reconcile => if t.state.task.isNone then [] else t.steps
    | _ => t.steps

def exec (t : Trail) (acts : List Act) : Trail := acts.foldl (step cfg name uid) t

variable {cfg name uid}

/-- Apply の腕は作法を守っていて、前の動作から後、Secret は動いていない。 -/
def Kept (cfg : Config) (t : Trail) : Prop :=
  ∀ task, t.state.task = some task → task.arm = .apply →
    (solitary cfg task.cr).Heeds (fun _ _ => True) t.steps task.rest ∧
    ∀ last, t.steps.getLast? = some last → t.state.world.secrets = last.2.secrets

/-- reconcile のほかに動くものは、Secret に触れない。 -/
theorem ledger_client {w : World} {c : Client} (hc : ∀ n stored, c ≠ .secret n stored) :
    (w.client name uid c).ledger = w.ledger := by
  cases c with
  | secret n stored => exact absurd rfl (hc n stored)
  | _ => rfl

/-- 走っている task の一歩。 -/
theorem Kept.advance {t : Trail} (h : t.Kept cfg) : (t.step cfg name uid .advance).Kept cfg := by
  obtain ⟨⟨w, task⟩, steps⟩ := t
  intro task' htask harm
  cases task with
  | none => cases htask
  | some task =>
    obtain ⟨arm, cr, rest⟩ := task
    cases rest with
    | ret result =>
      cases arm with
      | apply => cases htask
      | cleanup => cases result <;> cases htask
    | fail => cases htask
    | act update next =>
      cases htask
      obtain ⟨hheeds, hlast⟩ := h _ rfl harm
      refine ⟨(hheeds w hlast).2, fun last hl => ?_⟩
      rw [show (Trail.step cfg name uid ⟨⟨w, _⟩, steps⟩ .advance).steps = steps ++ [(w, update w)]
        from rfl, List.getLast?_concat] at hl
      cases hl
      rfl

/-- 外から Secret を書かない一歩。 -/
theorem Kept.step {t : Trail} (h : t.Kept cfg) {a : Act}
    (ha : ∀ n stored, a ≠ .client (.secret n stored)) : (t.step cfg name uid a).Kept cfg := by
  cases a with
  | client c =>
    intro task htask harm
    obtain ⟨hheeds, hlast⟩ := h task htask harm
    have hsame := @ledger_client name uid t.state.world c fun n stored hc =>
      ha n stored (congrArg Act.client hc)
    exact ⟨hheeds, fun last hl => (congrArg Prod.fst hsame).trans (hlast last hl)⟩
  | reconcile =>
    obtain ⟨⟨w, task⟩, steps⟩ := t
    cases task with
    | some task => exact h
    | none =>
      intro task htask harm
      cases hcr : w.crs name with
      | none =>
        simp only [Trail.step, State.step, hcr] at htask
        cases htask
      | some cr =>
        simp only [Trail.step, State.step, hcr] at htask
        cases htask
        refine ⟨?_, fun last hl => by cases hl⟩
        unfold Task.begin at harm ⊢
        split at harm
        · cases harm
        · next hd =>
          rw [if_neg hd]
          exact (tenets_solitary cfg cr).heeds_applyBunkerSecret
  | advance => exact h.advance
  | stop =>
    intro task htask
    cases htask

theorem Kept.exec {t : Trail} (h : t.Kept cfg) {acts : List Act}
    (hacts : ∀ n stored, .client (.secret n stored) ∉ acts) :
    (t.exec cfg name uid acts).Kept cfg := by
  induction acts generalizing t with
  | nil => exact h
  | cons a rest ih =>
    refine ih (h.step fun n stored ha => ?_) fun n stored hm => ?_
    · exact hacts n stored (ha ▸ List.mem_cons_self)
    · exact hacts n stored (List.mem_cons_of_mem _ hm)

/-- 作法を守る経過では、Apply の腕の動作は許されたものに限る。 -/
theorem Kept.permitted {t : Trail} (h : t.Kept cfg) {a : Act}
    (ha : ∀ n stored, a ≠ .client (.secret n stored)) :
    (t.step cfg name uid a).state.world.ledger = t.state.world.ledger ∨
      ∃ task, t.state.task = some task ∧ (task.arm = .apply →
        Permitted cfg task.cr t.steps t.state.world (t.step cfg name uid a).state.world) := by
  obtain ⟨⟨w, task⟩, steps⟩ := t
  cases a with
  | client c => exact Or.inl (ledger_client fun n stored hc => ha n stored (congrArg Act.client hc))
  | reconcile =>
    refine Or.inl (congrArg World.ledger ?_)
    cases task with
    | some task => rfl
    | none =>
      cases hcr : w.crs name with
      | none => simp only [Trail.step, State.step, hcr]
      | some cr => simp only [Trail.step, State.step, hcr]
  | stop => exact Or.inl rfl
  | advance =>
    cases task with
    | none => exact Or.inl rfl
    | some task =>
      obtain ⟨arm, cr, rest⟩ := task
      cases rest with
      | ret result =>
        refine Or.inl ?_
        cases arm with
        | apply => rfl
        | cleanup => cases result <;> rfl
      | fail => exact Or.inl rfl
      | act update next =>
        refine Or.inr ⟨_, rfl, fun harm => ?_⟩
        obtain ⟨hheeds, hlast⟩ := h _ rfl harm
        exact (hheeds w hlast).1

/-- **Secret に触れるのは、render できた reconcile だけである。**
mirror、途絶、spec がどう動き、reconcile がどこで打ち切られても、`apply_bunker_secret` が Secret を書く
API 呼び出しをするのは次の二つに限る。同じ reconcile の中で render が返した中身をそのまま target に書く。改名の前の
target で CR の持ち物であるものを、新しい target を書き終えたか一致を確かめた後に片付ける。 -/
theorem secret_frozen (cfg : Config) (name uid : String) (w₀ : World) {acts : List Act} {a : Act}
    (hacts : ∀ n stored, .client (.secret n stored) ∉ acts ++ [a]) :
    ((exec cfg name uid ⟨⟨w₀, none⟩, []⟩ acts).step cfg name uid a).state.world.ledger =
        (exec cfg name uid ⟨⟨w₀, none⟩, []⟩ acts).state.world.ledger ∨
      ∃ task, (exec cfg name uid ⟨⟨w₀, none⟩, []⟩ acts).state.task = some task ∧
        (task.arm = .apply →
          Permitted cfg task.cr (exec cfg name uid ⟨⟨w₀, none⟩, []⟩ acts).steps
            (exec cfg name uid ⟨⟨w₀, none⟩, []⟩ acts).state.world
            ((exec cfg name uid ⟨⟨w₀, none⟩, []⟩ acts).step cfg name uid a).state.world) := by
  have hstart : Kept cfg ⟨⟨w₀, none⟩, []⟩ := fun task htask => nomatch htask
  refine (hstart.exec fun n stored hm => ?_).permitted fun n stored ha => ?_
  · exact hacts n stored (List.mem_append_left _ hm)
  · exact hacts n stored (List.mem_append_right _ (ha ▸ List.mem_cons_self))

/-- 読み、render し、GET した後の一歩が Secret を書く。 -/
theorem secret_frozen_sample :
    ∃ task, (exec sampleConfig "app" "u" ⟨⟨sampleWorld, none⟩, []⟩ (reconcileFor 3)).state.task =
        some task ∧
      (task.arm = .apply → Permitted sampleConfig task.cr
        (exec sampleConfig "app" "u" ⟨⟨sampleWorld, none⟩, []⟩ (reconcileFor 3)).steps
        (exec sampleConfig "app" "u" ⟨⟨sampleWorld, none⟩, []⟩ (reconcileFor 3)).state.world
        ((exec sampleConfig "app" "u" ⟨⟨sampleWorld, none⟩, []⟩ (reconcileFor 3)).step
          sampleConfig "app" "u" .advance).state.world) := by
  have hclients : ∀ n stored, Act.client (.secret n stored) ∉ reconcileFor 3 ++ [.advance] := by
    intro n stored hm
    simp [reconcileFor] at hm
  refine (secret_frozen sampleConfig "app" "u" sampleWorld hclients).resolve_left fun hsame => ?_
  have hwritten : ((exec sampleConfig "app" "u" ⟨⟨sampleWorld, none⟩, []⟩ (reconcileFor 3)).step
      sampleConfig "app" "u" .advance).state.world.ledger.2.length = 1 := by decide +kernel
  have habsent : (exec sampleConfig "app" "u" ⟨⟨sampleWorld, none⟩, []⟩
      (reconcileFor 3)).state.world.ledger.2.length = 0 := by decide +kernel
  rw [hsame, habsent] at hwritten
  cases hwritten

end Trail

end Operator

end SecretBunker
