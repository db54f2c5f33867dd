import Mathlib.Data.List.Sort
import ParserServe.Foundation.Attempt
import ParserServe.Foundation.Topological
import ParserServe.Schema.Catalog

/-! # Versioned pipeline graphs

`schema/pipeline.py`: the retry policy, the stage definitions, and the depth-first check
by which `PipelineDefinition.validate_dag` accepts a list of stages.  What the rest of
the development uses of the check is `validateDag_sound`: an accepted list has distinct
names, no unknown dependency and a rank that decreases along every dependency.
-/

namespace ParserServe

open Foundation

structure RetryPolicy where
  maximumAttempts : Nat := 1
  initialDelaySeconds : ℚ := 1
  maximumDelaySeconds : ℚ := 30
  multiplier : ℚ := 2
  attempts_valid : 1 ≤ maximumAttempts ∧ maximumAttempts ≤ 20 := by decide +kernel
  initial_valid : 0 ≤ initialDelaySeconds ∧ initialDelaySeconds ≤ 3600 := by decide +kernel
  maximum_valid : 0 ≤ maximumDelaySeconds ∧ maximumDelaySeconds ≤ 86400 := by decide +kernel
  multiplier_valid : 1 ≤ multiplier ∧ multiplier ≤ 10 := by decide +kernel
  delays_valid : initialDelaySeconds ≤ maximumDelaySeconds := by decide +kernel
  deriving DecidableEq

structure BackendSelector where
  preferred : String
  fallbacks : List String := []
  requiredRuntimes : List DeviceRuntime := []
  candidates_nodup : (preferred :: fallbacks).Nodup := by decide
  runtimes_nodup : requiredRuntimes.Nodup := by decide

instance : DecidableEq BackendSelector := fun a b =>
  decidable_of_iff (a.preferred = b.preferred ∧ a.fallbacks = b.fallbacks ∧
    a.requiredRuntimes = b.requiredRuntimes) (by cases a; cases b; simp)

structure PipelineStageDefinition where
  name : String
  backend : BackendSelector
  dependsOn : List String := []
  timeoutSeconds : Nat
  retry : RetryPolicy := {}
  optional : Bool := false
  parameters : JsonText := "{}"
  timeout_valid : 1 ≤ timeoutSeconds ∧ timeoutSeconds ≤ 86400 := by decide
  self_free : name ∉ dependsOn := by decide
  dependsOn_nodup : dependsOn.Nodup := by decide
  deriving DecidableEq

inductive PipelineStatus
  | draft | published | disabled | archived
  deriving DecidableEq, Repr

/-! ## The depth-first check -/

/-- `dependencies[name]`, the set of names a stage depends on. -/
def dependenciesOf (stages : List PipelineStageDefinition) (name : String) : List String :=
  ((stages.find? (·.name = name)).map (·.dependsOn)).getD []

/-- `visit`: the result is the set `visited`, in the order in which names finish.  The
call depth is bounded by the fuel, as it is by the interpreter's recursion limit. -/
def visit (dependencies : String → List String) :
    Nat → List String → List String → String → Except String (List String)
  | 0, _, _, _ => .error "maximum recursion depth exceeded"
  | fuel + 1, visiting, visited, name =>
      if name ∈ visiting then .error "pipeline dependencies must form an acyclic graph"
      else if name ∈ visited then .ok visited
      else do
        let visited ← (dependencies name).foldlM
          (fun seen dependency => visit dependencies fuel (name :: visiting) seen dependency)
          visited
        .ok (visited ++ [name])

/-- The names a stage depends on that no stage carries. -/
def missingDependencies (stages : List PipelineStageDefinition)
    (stage : PipelineStageDefinition) : List String :=
  stage.dependsOn.filter fun dependency => !(stages.map (·.name)).contains dependency

/-- The first loop: every dependency names a stage. -/
def requireKnown (stages : List PipelineStageDefinition) :
    List PipelineStageDefinition → Except String Unit
  | [] => .ok ()
  | stage :: rest =>
      let missing := missingDependencies stages stage
      if missing ≠ [] then
        .error ("stage '" ++ stage.name ++ "' has unknown dependencies: " ++
          String.intercalate ", " (missing.insertionSort (· ≤ ·)))
      else requireKnown stages rest

def validateDag (stages : List PipelineStageDefinition) : Except String Unit := do
  let stageNames := stages.map (·.name)
  ensure stageNames.Nodup "pipeline stage names must be unique"
  requireKnown stages stages
  let _ ← stageNames.foldlM
    (fun visited name => visit (dependenciesOf stages) (stages.length + 1) [] visited name) []
  .ok ()

structure PipelineDefinition where
  pipelineId : String
  name : String
  version : Nat
  status : PipelineStatus
  mediaCategories : List MediaCategory
  mimeTypes : List Mime := []
  routingPriority : Int := 0
  stages : List PipelineStageDefinition
  createdAt : Time
  publishedAt : Option Time := none
  version_valid : 1 ≤ version := by decide
  categories_ne_nil : mediaCategories ≠ [] := by decide
  stages_ne_nil : stages ≠ [] := by decide
  dag_valid : validateDag stages = .ok ()
  published_valid : status = .published ↔ publishedAt.isSome
  published_after : ∀ t ∈ publishedAt, createdAt ≤ t

/-- `pipeline_supports_source`: the category must match, and MIME patterns narrow it. -/
def pipelineSupportsSource (pipeline : PipelineDefinition) (mediaCategory : MediaCategory)
    (mimeType : Mime) : Bool :=
  pipeline.mediaCategories.contains mediaCategory &&
    (pipeline.mimeTypes.isEmpty || pipeline.mimeTypes.any (mimePatternsOverlap · mimeType))

/-! ## Soundness of the check -/

/-- A fold of visits keeps the finishing order and ends with every listed name in it. -/
theorem foldlM_visit_sound {dependencies : String → List String}
    {f : List String → String → Except String (List String)}
    (hf : ∀ visited name visited', FinishOrder dependencies visited →
      f visited name = .ok visited' →
        FinishOrder dependencies visited' ∧ visited ⊆ visited' ∧ name ∈ visited')
    (names visited visited' : List String) (hv : FinishOrder dependencies visited)
    (h : names.foldlM f visited = .ok visited') :
    FinishOrder dependencies visited' ∧ visited ⊆ visited' ∧ ∀ name ∈ names, name ∈ visited' := by
  induction names generalizing visited with
  | nil =>
      obtain rfl := foldlM_nil_eq_ok.mp h
      exact ⟨hv, List.Subset.refl _, by simp⟩
  | cons name names ih =>
      obtain ⟨middle, hfirst, hrest⟩ := foldlM_cons_eq_ok.mp h
      obtain ⟨hm, hsub, hname⟩ := hf visited name middle hv hfirst
      obtain ⟨hv', hsub', hnames⟩ := ih middle hm hrest
      refine ⟨hv', List.Subset.trans hsub hsub', ?_⟩
      intro n hn
      rcases List.mem_cons.mp hn with rfl | hn
      · exact hsub' hname
      · exact hnames n hn

theorem visit_sound (dependencies : String → List String) (fuel : Nat) :
    ∀ visiting visited name visited', FinishOrder dependencies visited →
      visit dependencies fuel visiting visited name = .ok visited' →
        FinishOrder dependencies visited' ∧ visited ⊆ visited' ∧ name ∈ visited' := by
  induction fuel with
  | zero => intro visiting visited name visited' _ h; simp [visit] at h
  | succ fuel ih =>
      intro visiting visited name visited' hv h
      rw [visit] at h
      split at h
      · cases h
      split at h
      · next hseen =>
          cases h
          exact ⟨hv, List.Subset.refl _, hseen⟩
      · obtain ⟨middle, hfold, hend⟩ := bind_eq_ok.mp h
        cases hend
        obtain ⟨hm, hsub, hdeps⟩ :=
          foldlM_visit_sound (fun v n v' => ih (name :: visiting) v n v') _ _ _ hv hfold
        exact ⟨FinishOrder.snoc hm hdeps,
          List.Subset.trans hsub (List.subset_append_left _ _), by simp⟩

theorem dependenciesOf_eq {stages : List PipelineStageDefinition}
    (hnd : (stages.map (·.name)).Nodup) {stage : PipelineStageDefinition}
    (hmem : stage ∈ stages) : dependenciesOf stages stage.name = stage.dependsOn := by
  unfold dependenciesOf
  cases hfind : stages.find? (fun s => decide (s.name = stage.name)) with
  | none =>
      have := List.find?_eq_none.mp hfind stage hmem
      simp at this
  | some found =>
      have hname : found.name = stage.name := by simpa using List.find?_some hfind
      have heq : found = stage :=
        List.inj_on_of_nodup_map hnd (List.mem_of_find?_eq_some hfind) hmem hname
      simp [heq]

/-- What acceptance means for the stages of a definition. -/
structure DagValid (stages : List PipelineStageDefinition) : Prop where
  names_nodup : (stages.map (·.name)).Nodup
  known : ∀ stage ∈ stages, ∀ d ∈ stage.dependsOn, d ∈ stages.map (·.name)
  ranked : ∃ rank : String → Nat, ∀ stage ∈ stages, ∀ d ∈ stage.dependsOn,
    rank d < rank stage.name

theorem requireKnown_sound {stages : List PipelineStageDefinition}
    {rest : List PipelineStageDefinition} (h : requireKnown stages rest = .ok ()) :
    ∀ stage ∈ rest, ∀ d ∈ stage.dependsOn, d ∈ stages.map (·.name) := by
  induction rest with
  | nil => simp
  | cons first rest ih =>
      rw [requireKnown] at h
      split at h
      · cases h
      · next hmissing =>
          intro stage hstage d hd
          rcases List.mem_cons.mp hstage with rfl | hstage
          · have hnone := List.filter_eq_nil_iff.mp (not_not.mp hmissing) d hd
            simpa using hnone
          · exact ih h stage hstage d hd

theorem validateDag_sound {stages : List PipelineStageDefinition}
    (h : validateDag stages = .ok ()) : DagValid stages := by
  simp only [validateDag, bind_eq_ok, ensure_eq_ok] at h
  obtain ⟨_, hnames, _, hknown, visited, hvisit, _⟩ := h
  have horder := foldlM_visit_sound (fun v n v' => visit_sound _ _ [] v n v') _ _ _
    FinishOrder.nil hvisit
  refine ⟨hnames, requireKnown_sound hknown, fun name => visited.idxOf name, ?_⟩
  intro stage hstage d hd
  apply horder.1.idxOf_lt
  · exact horder.2.2 _ (List.mem_map_of_mem hstage)
  · rw [dependenciesOf_eq hnames hstage]
    exact hd

end ParserServe
