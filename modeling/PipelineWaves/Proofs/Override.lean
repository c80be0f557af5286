import PipelineWaves.Proofs.Validation

/-!
# Overrides

What further variables laid over a pipeline change when it is compiled. The graph does not
look at variables, and a name that is defined stays defined, so the fault that stands first
stays the first one. Only an undefined variable can go away, and it does exactly when the
overrides define it.
-/

set_option autoImplicit false

namespace PipelineWaves

/-- The error is a variable that is not defined, and the overrides define it. -/
def BuildError.IsRemovedBy (overrides : Environment) : BuildError → Prop
  | .undefined _ (.variable name) => overrides.contains name
  | _ => False

namespace CompiledPipeline

variable {pipeline : Pipeline} {graph : Graph} {step : Step} (overrides : Environment)

theorem is_defined_overridden (declared : String → Bool) (reference : Reference) :
    Condition.isDefined ((pipeline.withOverrides overrides).environmentOf step) declared
        reference =
      (Condition.isDefined (pipeline.environmentOf step) declared reference ||
        match reference with
        | .variable name => overrides.contains name
        | .step _ => false) := by
  cases reference with
  | «variable» name =>
      simp only [Condition.isDefined, Pipeline.environmentOf, Pipeline.withOverrides,
        Dictionary.contains_overlay]
      cases step.environment.contains name <;> cases overrides.contains name <;> simp
  | step id => exact (Bool.or_false _).symm

theorem first_undefined_overridden (condition : Condition) (declared : String → Bool)
    (kept : ∀ reference,
      condition.firstUndefined? (pipeline.environmentOf step) declared = some reference →
        ¬(BuildError.undefined step.id reference).IsRemovedBy overrides) :
    condition.firstUndefined? ((pipeline.withOverrides overrides).environmentOf step) declared =
      condition.firstUndefined? (pipeline.environmentOf step) declared := by
  have staysDefined (reference : Reference)
      (defined : Condition.isDefined (pipeline.environmentOf step) declared reference = true) :
      Condition.isDefined ((pipeline.withOverrides overrides).environmentOf step) declared
        reference = true := by
    rw [is_defined_overridden, defined, Bool.true_or]
  simp only [Condition.first_undefined_eq_find] at kept ⊢
  cases found : condition.references.find? fun reference =>
      !Condition.isDefined (pipeline.environmentOf step) declared reference with
  | none =>
      rw [List.find?_eq_none] at found ⊢
      intro reference mentioned
      simpa using staysDefined reference (by simpa using found reference mentioned)
  | some reference =>
      have notRemoved := kept reference found
      obtain ⟨undefined, before, after, split, definedBefore⟩ :=
        List.find?_eq_some_iff_append.1 found
      refine List.find?_eq_some_iff_append.2 ⟨?_, before, after, split, ?_⟩
      · rw [is_defined_overridden]
        cases reference with
        | «variable» name => simp_all [BuildError.IsRemovedBy]
        | step id => simpa using undefined
      · intro earlier isBefore
        simpa using staysDefined earlier (by simpa using definedBefore earlier isBefore)

theorem compile_condition_overridden {source : String}
    (kept : ∀ error, compileCondition pipeline graph step source = .error error →
      ¬error.IsRemovedBy overrides) :
    compileCondition (pipeline.withOverrides overrides) graph step source =
      compileCondition pipeline graph step source := by
  rw [compileCondition, compileCondition]
  cases parsed : Condition.parse source with
  | error failure => rfl
  | ok condition =>
      have sameUndefined : condition.firstUndefined?
            ((pipeline.withOverrides overrides).environmentOf step) graph.contains =
          condition.firstUndefined? (pipeline.environmentOf step) graph.contains := by
        apply first_undefined_overridden
        intro reference found
        apply kept
        simp only [compileCondition, parsed, found]
      simp only [sameUndefined]

theorem compile_conditions_overridden {steps : List Step}
    (kept : ∀ error, compileConditions pipeline graph steps = .error error →
      ¬error.IsRemovedBy overrides) :
    compileConditions (pipeline.withOverrides overrides) graph steps =
      compileConditions pipeline graph steps := by
  -- A condition that compiles is passed in both cases, and the first that does not decides in both.
  induction steps with
  | nil => rfl
  | cons step rest induction =>
      simp only [compileConditions] at kept ⊢
      cases written : step.condition with
      | none => exact induction (by simpa only [written] using kept)
      | some source =>
          simp only [written] at kept
          cases own : compileCondition pipeline graph step source with
          | error fault =>
              have same : compileCondition (pipeline.withOverrides overrides) graph step source =
                  compileCondition pipeline graph step source :=
                compile_condition_overridden overrides fun error refused =>
                  kept error (by rw [refused])
              simp only [same, own]
          | ok condition =>
              have same : compileCondition (pipeline.withOverrides overrides) graph step source =
                  compileCondition pipeline graph step source :=
                compile_condition_overridden overrides (by simp [own])
              have others := induction fun error refused => kept error (by
                simp only [own, refused]
                rfl)
              simp only [same, own, others]

theorem build_overridden (pipeline : Pipeline) :
    Graph.build (pipeline.withOverrides overrides) = Graph.build pipeline := rfl

theorem compile_overridden
    (kept : ∀ error, compile pipeline = .error error → ¬error.IsRemovedBy overrides) :
    compile (pipeline.withOverrides overrides) =
      (compile pipeline).map fun compiled =>
        { compiled with pipeline := pipeline.withOverrides overrides } := by
  rw [compile, compile, build_overridden]
  cases built : Graph.build pipeline with
  | error failure => rfl
  | ok graph =>
      have same : compileConditions (pipeline.withOverrides overrides) graph pipeline.steps =
          compileConditions pipeline graph pipeline.steps := by
        apply compile_conditions_overridden
        intro error refused
        apply kept
        simp only [compile, built, refused]
        rfl
      have sameSteps : (pipeline.withOverrides overrides).steps = pipeline.steps := rfl
      simp only [sameSteps, same]
      cases compileConditions pipeline graph pipeline.steps <;> rfl

theorem not_contains_of_undefined {id name : String}
    (refused : compile pipeline = .error (.undefined id (.variable name))) :
    pipeline.environment.contains name = false := by
  cases (compile_error_iff pipeline _).1 refused with
  | condition built split admitted written offends =>
      generalize fault : BuildError.undefined id (.variable name) = error at offends
      cases offends with
      | unreadable unread => cases fault
      | undefined readable first =>
          injection fault with _ sameReference
          have undefined := first.undefined
          rw [← sameReference] at undefined
          exact Bool.eq_false_iff.2 fun inCommon => undefined (.inl inCommon)

/-- A pipeline that compiles does so under any overrides, with the same graph and the same
conditions. One that does not fails with the same error, except that an undefined variable is
not reported again exactly when the overrides define it. -/
theorem overrides_never_invalidate (pipeline : Pipeline) (overrides : Environment) :
    (∀ compiled, compile pipeline = .ok compiled →
      compile (pipeline.withOverrides overrides) =
        .ok { compiled with pipeline := pipeline.withOverrides overrides }) ∧
    (∀ error, compile pipeline = .error error →
      (∀ id name, error ≠ .undefined id (.variable name)) →
        compile (pipeline.withOverrides overrides) = .error error) ∧
    ∀ id name, compile pipeline = .error (.undefined id (.variable name)) →
      (compile (pipeline.withOverrides overrides) = .error (.undefined id (.variable name)) ↔
        overrides.contains name = false) := by
  refine ⟨?_, ?_, ?_⟩
  · intro compiled compiles
    rw [compile_overridden overrides (by simp [compiles]), compiles]
    rfl
  · intro error refused otherKind
    have notRemoved : ¬error.IsRemovedBy overrides := by
      intro removed
      match error with
      | .undefined id (.variable name) => exact otherKind id name rfl
    rw [compile_overridden overrides (by simpa [refused] using notRemoved), refused]
    rfl
  · intro id name refused
    constructor
    · intro stillRefused
      have undefined := not_contains_of_undefined stillRefused
      rw [Pipeline.withOverrides, Dictionary.contains_overlay, Bool.or_eq_false_iff] at undefined
      exact undefined.1
    · intro notDefined
      have notRemoved : ¬(BuildError.undefined id (.variable name)).IsRemovedBy overrides := by
        simp [BuildError.IsRemovedBy, notDefined]
      rw [compile_overridden overrides (by simpa [refused] using notRemoved), refused]
      rfl

end CompiledPipeline

theorem gated_pipeline_overridden :
    (∃ compiled,
      CompiledPipeline.compile (gatedPipeline nestedGate "env.CHANNEL") = .ok compiled ∧
      CompiledPipeline.compile ((gatedPipeline nestedGate "env.CHANNEL").withOverrides
          (Dictionary.ofList [("CHANNEL", ""), ("GHOST", "1")])) =
        .ok { compiled with
          pipeline := (gatedPipeline nestedGate "env.CHANNEL").withOverrides
            (Dictionary.ofList [("CHANNEL", ""), ("GHOST", "1")]) }) ∧
    CompiledPipeline.compile ((gatedPipeline looseGate unreadableGate).withOverrides
        (Dictionary.ofList [("GHOST", "1")])) = .error (.undefined "deploy" (.step "lint")) ∧
    CompiledPipeline.compile ((gatedPipeline nestedGate looseGate).withOverrides
        (Dictionary.ofList [("GHOST", "1")])) = .error (.undefined "report" (.variable "DRY_RUN")) ∧
    CompiledPipeline.compile ((gatedPipeline nestedGate looseGate).withOverrides
        (Dictionary.ofList [("DRY_RUN", "1")])) ≠
      .error (.undefined "report" (.variable "DRY_RUN")) := by
  obtain ⟨compiled, compiles⟩ : ∃ compiled,
      CompiledPipeline.compile (gatedPipeline nestedGate "env.CHANNEL") = .ok compiled :=
    ⟨_, by cbv⟩
  refine ⟨⟨compiled, compiles, ?_⟩, ?_, ?_, ?_⟩
  · exact (CompiledPipeline.overrides_never_invalidate _ _).1 compiled compiles
  · exact (CompiledPipeline.overrides_never_invalidate _ _).2.1 _ (by cbv) (by simp)
  · exact ((CompiledPipeline.overrides_never_invalidate _ _).2.2 _ _ (by cbv)).2 (by decide)
  · intro refused
    have notDefined := ((CompiledPipeline.overrides_never_invalidate _ _).2.2 _ _ (by cbv)).1 refused
    exact absurd notDefined (by decide)

end PipelineWaves
