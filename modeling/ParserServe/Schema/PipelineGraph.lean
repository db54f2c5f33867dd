import ParserServe.Schema.Pipeline

/-! # Exactly the acyclic graphs

The stage validator and `PipelineDefinition.validate_dag` as they read a submitted list of
stages.  The set of a stage's dependencies is iterated in an order of the interpreter's
choosing, so the order is a parameter here; `validate_dag_accepts` shows that neither the
order nor the depth of the recursion shows in the answer, which is that the stages form a
directed acyclic graph.
-/

namespace ParserServe

open Foundation Relation

/-- A submitted stage: every field is valid by itself, the dependencies are arbitrary. -/
structure PipelineStageFields where
  name : String
  backend : BackendSelector
  dependsOn : List String := []
  timeoutSeconds : Nat
  retry : RetryPolicy := {}
  optional : Bool := false
  parameters : JsonText := "{}"
  timeout_valid : 1 ≤ timeoutSeconds ∧ timeoutSeconds ≤ 86400 := by decide

/-- `PipelineStageDefinition.validate_dependencies`. -/
def validateDependencies (fields : PipelineStageFields) :
    Except String PipelineStageDefinition :=
  if hself : fields.name ∈ fields.dependsOn then .error "a stage cannot depend on itself"
  else if hnodup : fields.dependsOn.Nodup then
    .ok {
      name := fields.name
      backend := fields.backend
      dependsOn := fields.dependsOn
      timeoutSeconds := fields.timeoutSeconds
      retry := fields.retry
      optional := fields.optional
      parameters := fields.parameters
      timeout_valid := fields.timeout_valid
      self_free := hself
      dependsOn_nodup := hnodup }
  else .error "depends_on must not contain duplicates"

/-- The order in which the interpreter iterates over `set(depends_on)`. -/
structure SetOrder where
  iterate : List String → List String
  mem_iterate : ∀ names name, name ∈ iterate names ↔ name ∈ names

/-- The calls of `visit` for each stage name, with the given recursion limit. -/
def visitAll (order : SetOrder) (limit : Nat) (stages : List PipelineStageDefinition) :
    Except String (List String) :=
  (stages.map (·.name)).foldlM
    (fun visited name =>
      visit (fun stage => order.iterate (dependenciesOf stages stage)) limit [] visited name) []

/-- `validate_dag` where sets are iterated in `order` and calls nest at most `limit` deep. -/
def validateDagIn (order : SetOrder) (limit : Nat) (stages : List PipelineStageDefinition) :
    Except String Unit := do
  ensure (stages.map (·.name)).Nodup "pipeline stage names must be unique"
  requireKnown stages stages
  let _ ← visitAll order limit stages
  .ok ()

/-- The validators as they meet the stages of a definition: each stage's own first. -/
def validateStages (order : SetOrder) (limit : Nat) (submitted : List PipelineStageFields) :
    Except String (List PipelineStageDefinition) := do
  let stages ← submitted.mapM validateDependencies
  validateDagIn order limit stages
  .ok stages

def SetOrder.listed : SetOrder := ⟨id, fun _ _ => Iff.rfl⟩

/-- `validateDag` is the check in list order, at the depth that is enough. -/
theorem validateDag_eq (stages : List PipelineStageDefinition) :
    validateDag stages = validateDagIn .listed (stages.length + 1) stages := rfl

/-! ## The search -/

/-- Where the search raises, it has the depth it needs and has run into a cycle: the names
being visited lead to the one it enters. -/
theorem visit_error {dependencies : String → List String} {nodes : List String}
    (hclosed : ∀ node ∈ nodes, ∀ d ∈ dependencies node, d ∈ nodes) (fuel : Nat) :
    ∀ visiting visited name e, (name :: visiting).IsChain (fun a b => a ∈ dependencies b) →
      visiting.Nodup → visiting ⊆ nodes → name ∈ nodes →
      nodes.length < fuel + visiting.length →
      visit dependencies fuel visiting visited name = .error e →
        e = "pipeline dependencies must form an acyclic graph" ∧
          ∃ node, TransGen (fun a b => b ∈ dependencies a) node node := by
  induction fuel with
  | zero =>
      intro visiting visited name e _ hnodup hsub _ hdepth _
      have := (List.subperm_of_subset hnodup hsub).length_le
      omega
  | succ fuel ih =>
      intro visiting visited name e hchain hnodup hsub hname hdepth h
      rw [visit] at h
      split at h
      · next hvisiting =>
          cases h
          have hback : TransGen (fun a b => a ∈ dependencies b) name name :=
            transGen_of_isChain hchain hvisiting
          exact ⟨rfl, name, transGen_swap.mp hback⟩
      · next hfresh =>
          split at h
          · cases h
          rw [bind_eq_error] at h
          rcases h with hloop | ⟨_, _, hend⟩
          · obtain ⟨seen, dependency, hdep, herror⟩ := exists_of_foldlM_eq_error hloop
            apply ih (name :: visiting) seen dependency e _ _ _ _ _ herror
            · exact List.isChain_cons_cons.mpr ⟨hdep, hchain⟩
            · exact List.nodup_cons.mpr ⟨hfresh, hnodup⟩
            · exact List.cons_subset.mpr ⟨hname, hsub⟩
            · exact hclosed name hname dependency hdep
            · simp only [List.length_cons]
              omega
          · cases hend

/-- What a stage's name leads to. -/
def DependsOn (submitted : List PipelineStageFields) (name dependency : String) : Prop :=
  ∃ stage ∈ submitted, stage.name = name ∧ dependency ∈ stage.dependsOn

/-- The stages are the nodes of a directed acyclic graph, each edge listed once. -/
structure IsDag (submitted : List PipelineStageFields) : Prop where
  names_nodup : (submitted.map (·.name)).Nodup
  known : ∀ stage ∈ submitted, ∀ d ∈ stage.dependsOn, d ∈ submitted.map (·.name)
  dependencies_nodup : ∀ stage ∈ submitted, stage.dependsOn.Nodup
  acyclic : ∀ name, ¬ TransGen (DependsOn submitted) name name

/-! ## The validators -/

/-- A stage definition without the proofs it carries. -/
def PipelineStageDefinition.fields (stage : PipelineStageDefinition) : PipelineStageFields where
  name := stage.name
  backend := stage.backend
  dependsOn := stage.dependsOn
  timeoutSeconds := stage.timeoutSeconds
  retry := stage.retry
  optional := stage.optional
  parameters := stage.parameters
  timeout_valid := stage.timeout_valid

theorem validateDependencies_eq_ok {fields : PipelineStageFields}
    {stage : PipelineStageDefinition} :
    validateDependencies fields = .ok stage ↔ stage.fields = fields := by
  constructor
  · intro h
    unfold validateDependencies at h
    split at h
    · cases h
    split at h
    · cases h
      rfl
    · cases h
  · rintro rfl
    exact (dif_neg stage.self_free).trans (dif_pos stage.dependsOn_nodup)

theorem mapM_validateDependencies_eq_ok {submitted : List PipelineStageFields}
    {stages : List PipelineStageDefinition} :
    submitted.mapM validateDependencies = .ok stages ↔ stages.map (·.fields) = submitted := by
  induction submitted generalizing stages with
  | nil => simp [pure, Except.pure, eq_comm]
  | cons fields rest ih =>
      rw [List.mapM_cons]
      simp only [bind_eq_ok, validateDependencies_eq_ok, ih, pure, Except.pure,
        Except.ok.injEq]
      constructor
      · rintro ⟨stage, rfl, others, rfl, rfl⟩
        rfl
      · cases stages with
        | nil => simp
        | cons stage others =>
            intro h
            exact ⟨stage, (List.cons.inj h).1, others, (List.cons.inj h).2, rfl⟩

/-- Stages that pass their own validators are definitions. -/
theorem exists_stages {submitted : List PipelineStageFields}
    (h : ∀ stage ∈ submitted, stage.name ∉ stage.dependsOn ∧ stage.dependsOn.Nodup) :
    ∃ stages : List PipelineStageDefinition, stages.map (·.fields) = submitted := by
  induction submitted with
  | nil => exact ⟨[], rfl⟩
  | cons fields rest ih =>
      obtain ⟨hself, hnodup⟩ := h fields List.mem_cons_self
      obtain ⟨stages, hrest⟩ := ih fun stage hstage => h stage (List.mem_cons_of_mem _ hstage)
      let stage : PipelineStageDefinition :=
        { fields with self_free := hself, dependsOn_nodup := hnodup }
      refine ⟨stage :: stages, ?_⟩
      rw [List.map_cons, hrest]
      rfl

section

variable {stages : List PipelineStageDefinition}

theorem mem_names {name : String} :
    name ∈ (stages.map (·.fields)).map (·.name) ↔ name ∈ stages.map (·.name) := by
  rw [List.map_map]
  rfl

theorem dependsOn_iff (hnames : (stages.map (·.name)).Nodup) {a b : String} :
    DependsOn (stages.map (·.fields)) a b ↔ b ∈ dependenciesOf stages a := by
  constructor
  · rintro ⟨fields, hfields, rfl, hb⟩
    obtain ⟨stage, hstage, rfl⟩ := List.mem_map.mp hfields
    have hdeps : dependenciesOf stages stage.name = stage.dependsOn :=
      dependenciesOf_eq hnames hstage
    exact hdeps.symm ▸ hb
  · intro hb
    unfold dependenciesOf at hb
    cases hfind : stages.find? (fun s => decide (s.name = a)) with
    | none => simp [hfind] at hb
    | some stage =>
        have hname : stage.name = a := by simpa using List.find?_some hfind
        rw [hfind] at hb
        exact ⟨stage.fields, List.mem_map_of_mem (List.mem_of_find?_eq_some hfind), hname, hb⟩

theorem requireKnown_of_known {rest : List PipelineStageDefinition}
    (h : ∀ stage ∈ rest, ∀ d ∈ stage.dependsOn, d ∈ stages.map (·.name)) :
    requireKnown stages rest = .ok () := by
  induction rest with
  | nil => rfl
  | cons stage rest ih =>
      have hnone : missingDependencies stages stage = [] := by
        refine List.filter_eq_nil_iff.mpr ?_
        intro d hd
        simpa using h stage List.mem_cons_self d hd
      rw [requireKnown, hnone]
      exact ih fun other hother => h other (List.mem_cons_of_mem _ hother)

/-- The message of a dangling dependency starts with the stage. -/
theorem requireKnown_error {rest : List PipelineStageDefinition} {e : String}
    (h : requireKnown stages rest = .error e) : e.toList.head? = some 's' := by
  induction rest with
  | nil => cases h
  | cons stage rest ih =>
      rw [requireKnown] at h
      split at h
      · cases h
        simp
      · exact ih h

/-- Once names are distinct and dependencies known, the search ends by itself: it finishes
every stage, or it stands on a cycle. -/
theorem visitAll_ends (order : SetOrder) {limit : Nat} (hlimit : stages.length < limit)
    (hnames : (stages.map (·.name)).Nodup)
    (hknown : ∀ stage ∈ stages, ∀ d ∈ stage.dependsOn, d ∈ stages.map (·.name)) :
    ((visitAll order limit stages).isOk ∧
        ∀ name, ¬ TransGen (DependsOn (stages.map (·.fields))) name name) ∨
      (visitAll order limit stages =
          .error "pipeline dependencies must form an acyclic graph" ∧
        ∃ name, TransGen (DependsOn (stages.map (·.fields))) name name) := by
  have hedge : DependsOn (stages.map (·.fields)) =
      fun a b => b ∈ order.iterate (dependenciesOf stages a) := by
    funext a b
    rw [order.mem_iterate, ← dependsOn_iff hnames]
  have hclosed : ∀ a ∈ stages.map (·.name), ∀ d ∈ order.iterate (dependenciesOf stages a),
      d ∈ stages.map (·.name) := by
    intro a ha d hd
    obtain ⟨stage, hstage, rfl⟩ := List.mem_map.mp ha
    rw [order.mem_iterate, dependenciesOf_eq hnames hstage] at hd
    exact hknown stage hstage d hd
  rw [hedge]
  cases h : visitAll order limit stages with
  | ok visited =>
      left
      refine ⟨rfl, ?_⟩
      obtain ⟨hfinish, _, hall⟩ :=
        foldlM_visit_sound (fun v n v' => visit_sound _ _ [] v n v') _ _ _ FinishOrder.nil h
      intro name hcycle
      obtain ⟨next, hnext, _⟩ := TransGen.head'_iff.mp hcycle
      have hname : name ∈ stages.map (·.name) := by
        rw [order.mem_iterate, ← dependsOn_iff hnames] at hnext
        obtain ⟨fields, hfields, rfl, _⟩ := hnext
        exact mem_names.mp (List.mem_map_of_mem hfields)
      exact hfinish.not_transGen (hall name hname) hcycle
  | error e =>
      right
      obtain ⟨visited, name, hname, herror⟩ := exists_of_foldlM_eq_error h
      obtain ⟨rfl, hcycle⟩ := visit_error hclosed limit [] visited name e (by simp) (by simp)
        (by simp) hname (by simpa using hlimit) herror
      exact ⟨rfl, hcycle⟩

theorem validateDagIn_spec (order : SetOrder) {limit : Nat} (hlimit : stages.length < limit) :
    validateDagIn order limit stages ≠ .error "maximum recursion depth exceeded" ∧
      ((validateDagIn order limit stages).isOk ↔ IsDag (stages.map (·.fields))) := by
  by_cases hnames : (stages.map (·.name)).Nodup
  · by_cases hknown : ∀ stage ∈ stages, ∀ d ∈ stage.dependsOn, d ∈ stages.map (·.name)
    · have hrun : validateDagIn order limit stages =
          (visitAll order limit stages >>= fun _ => .ok ()) := by
        unfold validateDagIn
        rw [ensure_of_true hnames, requireKnown_of_known hknown]
        rfl
      rw [hrun]
      rcases visitAll_ends order hlimit hnames hknown with
        ⟨hok, hacyclic⟩ | ⟨herror, name, hcycle⟩
      · obtain ⟨visited, hvisited⟩ := isOk_iff.mp hok
        rw [hvisited]
        refine ⟨by simp [bind, Except.bind], iff_of_true rfl ?_⟩
        refine ⟨?_, ?_, ?_, hacyclic⟩
        · rw [List.map_map]
          exact hnames
        · intro fields hfields d hd
          obtain ⟨stage, hstage, rfl⟩ := List.mem_map.mp hfields
          exact mem_names.mpr (hknown stage hstage d hd)
        · intro fields hfields
          obtain ⟨stage, _, rfl⟩ := List.mem_map.mp hfields
          exact stage.dependsOn_nodup
      · rw [herror]
        refine ⟨by simp [bind, Except.bind], iff_of_false (by simp [bind, Except.bind,
          Except.isOk, Except.toBool]) ?_⟩
        intro hdag
        exact hdag.acyclic name hcycle
    · obtain ⟨e, herror⟩ : ∃ e, requireKnown stages stages = .error e := by
        cases h : requireKnown stages stages with
        | ok _ => exact absurd (requireKnown_sound h) hknown
        | error e => exact ⟨e, rfl⟩
      have hrun : validateDagIn order limit stages = .error e := by
        unfold validateDagIn
        rw [ensure_of_true hnames, herror]
        rfl
      rw [hrun]
      refine ⟨?_, iff_of_false (by simp [Except.isOk, Except.toBool]) ?_⟩
      · intro h
        have hfirst := requireKnown_error herror
        rw [Except.error.inj h] at hfirst
        simp at hfirst
      · intro hdag
        refine hknown fun stage hstage d hd => ?_
        exact mem_names.mp (hdag.known stage.fields (List.mem_map_of_mem hstage) d hd)
  · have hrun : validateDagIn order limit stages =
        .error "pipeline stage names must be unique" := by
      unfold validateDagIn
      rw [ensure, if_neg hnames]
      rfl
    rw [hrun]
    refine ⟨by simp, iff_of_false (by simp [Except.isOk, Except.toBool]) ?_⟩
    intro hdag
    have := hdag.names_nodup
    rw [List.map_map] at this
    exact hnames this

end

theorem validateDependencies_error {fields : PipelineStageFields} {e : String}
    (h : validateDependencies fields = .error e) :
    e = "a stage cannot depend on itself" ∨ e = "depends_on must not contain duplicates" := by
  unfold validateDependencies at h
  split at h
  · exact .inl (Except.error.inj h).symm
  split at h
  · cases h
  · exact .inr (Except.error.inj h).symm

/-- For every list of submitted stages, every order in which sets are iterated and every
recursion limit above the number of stages: the validators end without meeting the limit, and
accept exactly the directed acyclic graphs. -/
theorem validate_dag_accepts (order : SetOrder) (submitted : List PipelineStageFields)
    (spare : Nat) :
    validateStages order (submitted.length + 1 + spare) submitted ≠
        .error "maximum recursion depth exceeded" ∧
      ((validateStages order (submitted.length + 1 + spare) submitted).isOk ↔
        IsDag submitted) := by
  cases hvalid : submitted.mapM validateDependencies with
  | error e =>
      have hrun : validateStages order (submitted.length + 1 + spare) submitted = .error e := by
        rw [validateStages, hvalid]
        rfl
      rw [hrun]
      refine ⟨?_, iff_of_false (by simp [Except.isOk, Except.toBool]) ?_⟩
      · obtain ⟨fields, _, herror⟩ := exists_of_mapM_eq_error hvalid
        rcases validateDependencies_error herror with rfl | rfl <;> simp
      · intro hdag
        have hstages : ∃ stages : List PipelineStageDefinition,
            stages.map (·.fields) = submitted := by
          refine exists_stages ?_
          intro stage hstage
          refine ⟨?_, hdag.dependencies_nodup stage hstage⟩
          intro hself
          exact hdag.acyclic stage.name (.single ⟨stage, hstage, rfl, hself⟩)
        obtain ⟨stages, hmap⟩ := hstages
        rw [mapM_validateDependencies_eq_ok.mpr hmap] at hvalid
        cases hvalid
  | ok stages =>
      have hmap := mapM_validateDependencies_eq_ok.mp hvalid
      subst hmap
      have hlimit : stages.length < (stages.map (·.fields)).length + 1 + spare := by
        rw [List.length_map]
        omega
      have hdag := validateDagIn_spec order hlimit
      have hrun : validateStages order ((stages.map (·.fields)).length + 1 + spare)
          (stages.map (·.fields)) =
          (validateDagIn order ((stages.map (·.fields)).length + 1 + spare) stages >>=
            fun _ => .ok stages) := by
        rw [validateStages, hvalid]
        rfl
      rw [hrun]
      cases hrest : validateDagIn order ((stages.map (·.fields)).length + 1 + spare) stages with
      | error e =>
          rw [hrest] at hdag
          refine ⟨?_, hdag.2⟩
          intro h
          exact hdag.1 (congrArg Except.error (Except.error.inj h))
      | ok _ =>
          rw [hrest] at hdag
          exact ⟨by simp [bind, Except.bind], hdag.2⟩

end ParserServe
