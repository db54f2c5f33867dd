import Mathlib.Data.String.Basic
import ParserServe.Api.Cursors
import ParserServe.Foundation.Keyset

/-! # The task list

`TaskRepository.list` and the endpoint over it.  Following the cursors of a fixed set of tasks
gives every matching task once, in the requested order.
-/

namespace ParserServe

open Foundation

inductive TaskSortField
  | createdAt | updatedAt | priority
  deriving DecidableEq, Repr

def TaskSortField.value : TaskSortField → Text
  | createdAt => "created_at".toList
  | updatedAt => "updated_at".toList
  | priority => "priority".toList

/-- The columns of a task that the list reads. -/
structure ListedTask where
  taskId : String
  status : TaskStatus
  mediaCategory : Option MediaCategory
  pipelineId : Option String
  backendName : Option String
  requestedRuntime : Option DeviceRuntime
  createdAt : UtcDatetime
  updatedAt : UtcDatetime
  priority : Int
  id_valid : isIdentifier "task" taskId.toList
  priority_valid : -100 ≤ priority ∧ priority ≤ 100

structure TaskListQuery where
  statuses : List TaskStatus := []
  mediaCategory : Option MediaCategory := none
  pipelineId : Option String := none
  backendName : Option String := none
  runtime : Option DeviceRuntime := none
  createdAfter : Option UtcDatetime := none
  createdBefore : Option UtcDatetime := none
  limit : Nat := 50
  cursor : Option Text := none
  sortBy : TaskSortField := .createdAt
  sortDirection : SortDirection := .desc
  limit_pos : 1 ≤ limit := by decide

/-! ## The repository -/

/-- The `where` clauses of the filters. -/
def TaskListQuery.selects (query : TaskListQuery) (task : ListedTask) : Bool :=
  (query.statuses.isEmpty || query.statuses.contains task.status) &&
    (query.mediaCategory.isNone || query.mediaCategory = task.mediaCategory) &&
    (query.pipelineId.isNone || query.pipelineId = task.pipelineId) &&
    (query.backendName.isNone || query.backendName = task.backendName) &&
    (query.runtime.isNone || query.runtime = task.requestedRuntime) &&
    query.createdAfter.all (fun t => decide (t.order ≤ task.createdAt.order)) &&
    query.createdBefore.all (fun t => decide (task.createdAt.order ≤ t.order))

/-- `_sort_value`. -/
def ListedTask.sortValue (task : ListedTask) : TaskSortField → SortValue
  | .createdAt => .datetime task.createdAt
  | .updatedAt => .datetime task.updatedAt
  | .priority => .int task.priority

/-- The order of the sort column; the fields of a column are all times or all integers. -/
def SortValue.key : SortValue → Int
  | .datetime value => value.order
  | .int value => value
  | .str _ => 0

/-- `sort_column` beyond the cursor's value, or equal to it and the identifier beyond. -/
def TaskListQuery.beyond (query : TaskListQuery) (value : SortValue) (taskId : String)
    (task : ListedTask) : Bool :=
  let key := (task.sortValue query.sortBy).key
  match query.sortDirection with
  | .asc => value.key < key || (key = value.key && taskId < task.taskId)
  | .desc => key < value.key || (key = value.key && task.taskId < taskId)

/-- `order_by`. -/
def TaskListQuery.ordering (query : TaskListQuery) (a b : ListedTask) : Prop :=
  let keyA := (a.sortValue query.sortBy).key
  let keyB := (b.sortValue query.sortBy).key
  match query.sortDirection with
  | .asc => keyA < keyB ∨ (keyA = keyB ∧ a.taskId ≤ b.taskId)
  | .desc => keyB < keyA ∨ (keyA = keyB ∧ b.taskId ≤ a.taskId)

instance (query : TaskListQuery) : DecidableRel query.ordering := fun a b => by
  unfold TaskListQuery.ordering
  cases query.sortDirection <;> exact inferInstanceAs (Decidable (_ ∨ _))

/-- `TaskRepository.list`. -/
def TaskRepository.list (tasks : List ListedTask) (query : TaskListQuery)
    (cursor : Option (SortValue × String)) : List ListedTask :=
  let selected := tasks.filter query.selects
  let selected := match cursor with
    | none => selected
    | some (value, taskId) => selected.filter (query.beyond value taskId)
  (selected.insertionSort query.ordering).take (query.limit + 1)

/-! ## The endpoint -/

def encodeTaskCursor (task : ListedTask) (sortBy : TaskSortField) (direction : SortDirection) :
    Text :=
  encodePayload [.str sortBy.value, .str direction.value, (task.sortValue sortBy).serialized,
    .str task.taskId.toList]

/-- `int(value)` of a JSON scalar. -/
def intOf : JsonScalar → Option Int
  | .int value => some value
  | .str text => parseInt text
  | .bool value => some (if value then 1 else 0)
  | .null => none

section

variable (validateDatetime : JsonScalar → Option UtcDatetime)

def decodeTaskValue (sortBy : TaskSortField) (raw : JsonScalar) : Option SortValue :=
  match sortBy with
  | .priority => (intOf raw).map .int
  | _ => (validateDatetime raw).map .datetime

/-- `_decode_cursor`. -/
def decodeTaskCursor (query : TaskListQuery) : Except String (Option (SortValue × String)) :=
  match query.cursor with
  | none => .ok none
  | some cursor =>
      match decodePayload cursor with
      | some [a, b, rawValue, rawId] =>
          if a = .str query.sortBy.value ∧ b = .str query.sortDirection.value then
            match decodeTaskValue validateDatetime query.sortBy rawValue,
                validateIdentifier "task" rawId with
            | some value, some taskId => .ok (some (value, String.ofList taskId))
            | _, _ => .error "The task list cursor is invalid for this query"
          else .error "The task list cursor is invalid for this query"
      | _ => .error "The task list cursor is invalid for this query"

structure TaskPage where
  items : List ListedTask
  hasMore : Bool
  nextCursor : Option Text

/-- `list_tasks` behind the checks of its cursor parameter and of `PageInfo`. -/
def listTasks (tasks : List ListedTask) (query : TaskListQuery) : Except String TaskPage := do
  ensure (∀ cursor ∈ query.cursor, CursorAccepted cursor) "validation error"
  let cursor ← decodeTaskCursor validateDatetime query
  let records := TaskRepository.list tasks query cursor
  let hasMore := decide (query.limit < records.length)
  let nextCursor := if hasMore then
      (records[query.limit - 1]?).map (encodeTaskCursor · query.sortBy query.sortDirection)
    else none
  ensure (∀ cursor ∈ nextCursor, CursorAccepted cursor) "validation error"
  .ok ⟨records.take query.limit, hasMore, nextCursor⟩

/-- Follow the cursors from a query on until a page has no more behind it. -/
def followCursors (tasks : List ListedTask) : Nat → TaskListQuery → Except String (List ListedTask)
  | 0, _ => .error "more pages"
  | pages + 1, query => do
      let page ← listTasks validateDatetime tasks query
      if page.hasMore then
        let rest ← followCursors tasks pages { query with cursor := page.nextCursor }
        .ok (page.items ++ rest)
      else .ok page.items

/-! ## Round trip -/

theorem decodeTaskValue_serialized
    (hvalidate : ∀ t : UtcDatetime, validateDatetime (.str t.isoformat) = some t)
    (task : ListedTask) (sortBy : TaskSortField) :
    decodeTaskValue validateDatetime sortBy (task.sortValue sortBy).serialized =
      some (task.sortValue sortBy) := by
  cases sortBy with
  | createdAt => exact congrArg (Option.map SortValue.datetime) (hvalidate task.createdAt)
  | updatedAt => exact congrArg (Option.map SortValue.datetime) (hvalidate task.updatedAt)
  | priority => rfl

/-- A cursor decodes to the sort value and the identifier of its task. -/
theorem decodeTaskCursor_encode
    (hvalidate : ∀ t : UtcDatetime, validateDatetime (.str t.isoformat) = some t)
    (task : ListedTask) (query : TaskListQuery) :
    decodeTaskCursor validateDatetime { query with
      cursor := some (encodeTaskCursor task query.sortBy query.sortDirection) } =
        .ok (some (task.sortValue query.sortBy, task.taskId)) := by
  simp only [decodeTaskCursor, encodeTaskCursor, decodePayload_encodePayload]
  rw [if_pos ⟨trivial, trivial⟩, decodeTaskValue_serialized validateDatetime hvalidate,
    validateIdentifier_str task.id_valid]
  simp

end

theorem length_serialized_le (task : ListedTask) (sortBy : TaskSortField) :
    (task.sortValue sortBy).serialized.write.length ≤ 386 := by
  have hdatetime : ∀ t : UtcDatetime, (JsonScalar.str t.isoformat).write.length ≤ 386 := by
    intro t
    have hescape := length_escapeText_le t.isoformat
    have hlength := length_isoformat_le t
    rw [length_write_str]
    omega
  cases sortBy with
  | createdAt => exact hdatetime task.createdAt
  | updatedAt => exact hdatetime task.updatedAt
  | priority =>
      have hvalid := task.priority_valid
      have hdecimal : (decimal task.priority).length ≤ 3 + 1 :=
        length_decimal_le (by decide) (by omega)
      exact hdecimal.trans (by decide)

/-- The cursor of a task is never too long. -/
theorem taskCursor_accepted (task : ListedTask) (sortBy : TaskSortField)
    (direction : SortDirection) : CursorAccepted (encodeTaskCursor task sortBy direction) := by
  have hfield : (JsonScalar.str sortBy.value).write.length ≤ 12 := by
    cases sortBy <;> decide
  have hdirection : (JsonScalar.str direction.value).write.length ≤ 6 := by
    cases direction <;> decide
  have hvalue := length_serialized_le task sortBy
  have hid : (JsonScalar.str task.taskId.toList).write.length ≤ 71 := by
    have hlength := length_le_of_isIdentifier task.id_valid
    have hkind : "task".length = 4 := rfl
    rw [length_write_str, escapeText_of_isIdentifier (by decide) task.id_valid]
    omega
  rw [encodeTaskCursor, cursorAccepted_encodePayload, length_dumps (by simp)]
  simp only [List.map_cons, List.map_nil, List.sum_cons, List.sum_nil, List.length_cons,
    List.length_nil]
  omega

/-! ## Pages -/

/-- The requested order as distinct ranks, in either direction. -/
theorem exists_rank (query : TaskListQuery) : ∃ (κ : Type) (_ : LinearOrder κ)
    (rank : ListedTask → κ), (∀ a b, query.ordering a b ↔ rank a ≤ rank b) ∧
      (∀ a b, query.beyond (a.sortValue query.sortBy) a.taskId b = decide (rank a < rank b)) ∧
      ∀ tasks : List ListedTask, (tasks.map (·.taskId)).Nodup → (tasks.map rank).Nodup := by
  cases hdirection : query.sortDirection with
  | asc =>
      refine ⟨Lex (Int × String), inferInstance,
        fun task => toLex ((task.sortValue query.sortBy).key, task.taskId), ?_, ?_, ?_⟩
      · intro a b
        simp only [TaskListQuery.ordering, hdirection, Prod.Lex.toLex_le_toLex]
      · intro a b
        rw [Bool.eq_iff_iff, decide_eq_true_eq]
        simp only [TaskListQuery.beyond, hdirection, Prod.Lex.toLex_lt_toLex, Bool.or_eq_true,
          Bool.and_eq_true, decide_eq_true_eq]
        rw [eq_comm]
      · intro tasks hnodup
        exact nodup_map_rank _ hnodup
  | desc =>
      refine ⟨(Lex (Int × String))ᵒᵈ, inferInstance,
        fun task => OrderDual.toDual (toLex ((task.sortValue query.sortBy).key, task.taskId)),
        ?_, ?_, ?_⟩
      · intro a b
        simp only [TaskListQuery.ordering, hdirection, OrderDual.toDual_le_toDual,
          Prod.Lex.toLex_le_toLex, eq_comm]
      · intro a b
        rw [Bool.eq_iff_iff, decide_eq_true_eq]
        simp only [TaskListQuery.beyond, hdirection, OrderDual.toDual_lt_toDual,
          Prod.Lex.toLex_lt_toLex, Bool.or_eq_true, Bool.and_eq_true, decide_eq_true_eq]
      · intro tasks hnodup
        exact nodup_map_rank _ hnodup

section

variable {validateDatetime : JsonScalar → Option UtcDatetime}

/-- The matching tasks in the requested order. -/
def TaskListQuery.results (query : TaskListQuery) (tasks : List ListedTask) : List ListedTask :=
  (tasks.filter query.selects).insertionSort query.ordering

/-- From a cursor on: what is behind its task in the order, cut off after the look-ahead row. -/
theorem list_beyond (query : TaskListQuery) {tasks before after : List ListedTask}
    {task : ListedTask} (hids : (tasks.map (·.taskId)).Nodup)
    (hresults : query.results tasks = before ++ task :: after) :
    TaskRepository.list tasks query (some (task.sortValue query.sortBy, task.taskId)) =
      after.take (query.limit + 1) := by
  obtain ⟨κ, _, rank, hr, hbeyond, hranks⟩ := exists_rank query
  have hnodup : ((tasks.filter query.selects).map rank).Nodup :=
    hranks _ (hids.sublist (List.filter_sublist.map _))
  have hsorted := pairwise_insertionSort_of_rank hr hnodup
  have hpred : query.beyond (task.sortValue query.sortBy) task.taskId =
      fun other => decide (rank task < rank other) := funext (hbeyond task)
  simp only [TaskRepository.list]
  rw [hpred, insertionSort_filter hr hnodup]
  change ((query.results tasks).filter _).take _ = _
  change (query.results tasks).Pairwise _ at hsorted
  rw [hresults] at hsorted ⊢
  rw [filter_beyond hsorted]

/-- One request, with or without a cursor: a page of what is left and the cursor of its last
task. -/
theorem listTasks_page (query : TaskListQuery) {tasks records : List ListedTask}
    {cursor : Option (SortValue × String)}
    (haccepted : ∀ text ∈ query.cursor, CursorAccepted text)
    (hcursor : decodeTaskCursor validateDatetime query = .ok cursor)
    (hrecords : TaskRepository.list tasks query cursor = records.take (query.limit + 1)) :
    listTasks validateDatetime tasks query = .ok {
      items := records.take query.limit
      hasMore := decide (query.limit < records.length)
      nextCursor := if query.limit < records.length then
          (records[query.limit - 1]?).map
            (encodeTaskCursor · query.sortBy query.sortDirection)
        else none } := by
  have hlength : (query.limit < (records.take (query.limit + 1)).length) =
      (query.limit < records.length) := by
    rw [List.length_take]
    exact propext ⟨fun h => by omega, fun h => by omega⟩
  have hlast : (records.take (query.limit + 1))[query.limit - 1]? = records[query.limit - 1]? := by
    rw [List.getElem?_take, if_pos (by omega)]
  have hitems : (records.take (query.limit + 1)).take query.limit = records.take query.limit := by
    rw [List.take_take]
    congr 1
    omega
  have hnext : ∀ text ∈ (if decide (query.limit < records.length) = true then
      (records[query.limit - 1]?).map (encodeTaskCursor · query.sortBy query.sortDirection)
        else none), CursorAccepted text := by
    intro text htext
    split at htext
    · obtain ⟨task, _, rfl⟩ := Option.map_eq_some_iff.mp htext
      exact taskCursor_accepted task _ _
    · cases htext
  rw [listTasks, ensure_of_true haccepted, hcursor]
  simp only [bind, Except.bind, hrecords, hlength, hlast, hitems]
  rw [ensure_of_true hnext]
  simp only [decide_eq_true_eq]

/-- A page holds what is left, up to the limit, and its cursor leads to the rest. -/
theorem followCursors_rest
    (hvalidate : ∀ t : UtcDatetime, validateDatetime (.str t.isoformat) = some t)
    {tasks : List ListedTask} (hids : (tasks.map (·.taskId)).Nodup) (query : TaskListQuery)
    (pages : Nat) : ∀ (after before : List ListedTask) (cursor : Option Text),
      query.results tasks = before ++ after →
      (cursor = none ∧ before = [] ∨ ∃ front task, before = front ++ [task] ∧
        cursor = some (encodeTaskCursor task query.sortBy query.sortDirection)) →
      after.length < pages →
      followCursors validateDatetime tasks pages { query with cursor := cursor } = .ok after := by
  induction pages with
  | zero => intro after before cursor _ _ h; omega
  | succ pages ih =>
      intro after before cursor hresults hcursor hpages
      -- the records of this request, whichever way it starts
      obtain ⟨position, haccepted, hdecode, hlist⟩ : ∃ position,
          (∀ text ∈ cursor, CursorAccepted text) ∧
            decodeTaskCursor validateDatetime { query with cursor := cursor } = .ok position ∧
              TaskRepository.list tasks { query with cursor := cursor } position =
                after.take (query.limit + 1) := by
        rcases hcursor with ⟨rfl, rfl⟩ | ⟨front, task, rfl, rfl⟩
        · refine ⟨none, by simp, rfl, ?_⟩
          exact congrArg (List.take (query.limit + 1)) hresults
        · refine ⟨_, ?_, decodeTaskCursor_encode validateDatetime hvalidate task query, ?_⟩
          · intro text htext
            rw [← Option.some.inj htext]
            exact taskCursor_accepted task _ _
          · rw [List.append_assoc] at hresults
            exact list_beyond query hids hresults
      have hpage := listTasks_page { query with cursor := cursor } haccepted hdecode hlist
      rw [followCursors, hpage]
      simp only [bind, Except.bind, decide_eq_true_eq]
      by_cases hmore : query.limit < after.length
      · have hlimit := query.limit_pos
        obtain ⟨task, htask⟩ : ∃ task, after[query.limit - 1]? = some task :=
          ⟨_, List.getElem?_eq_getElem (by omega)⟩
        have hsplit : after.take query.limit = after.take (query.limit - 1) ++ [task] := by
          have hsum : query.limit - 1 + 1 = query.limit := by omega
          rw [← hsum, List.take_add_one, Nat.add_sub_cancel, htask]
          rfl
        have hrest := ih (after.drop query.limit) (before ++ after.take query.limit)
          (some (encodeTaskCursor task query.sortBy query.sortDirection))
          (by rw [List.append_assoc, List.take_append_drop, hresults])
          (.inr ⟨before ++ after.take (query.limit - 1), task, by rw [hsplit, List.append_assoc],
            rfl⟩)
          (by rw [List.length_drop]; omega)
        simp only [hmore, if_true, htask, Option.map_some]
        rw [hrest]
        simp only [List.take_append_drop]
      · rw [if_neg hmore, List.take_of_length_le (by omega)]

/-- Every task that matches, once, in the order of the sort column and the identifier. -/
structure ListsExactly (query : TaskListQuery) (tasks result : List ListedTask) : Prop where
  once : result.Perm (tasks.filter query.selects)
  ordered : result.Pairwise fun a b => query.ordering a b ∧ a.taskId ≠ b.taskId

theorem results_exact {tasks : List ListedTask} (hids : (tasks.map (·.taskId)).Nodup)
    (query : TaskListQuery) : ListsExactly query tasks (query.results tasks) := by
  obtain ⟨κ, _, rank, hr, _, hranks⟩ := exists_rank query
  have hselected : ((tasks.filter query.selects).map (·.taskId)).Nodup :=
    hids.sublist (List.filter_sublist.map _)
  have hperm := (tasks.filter query.selects).perm_insertionSort query.ordering
  refine ⟨hperm, ?_⟩
  have hsorted := pairwise_insertionSort_of_rank hr (hranks _ hselected)
  have hdistinct : ((query.results tasks).map (·.taskId)).Nodup :=
    (hperm.map _).nodup_iff.mpr hselected
  exact (hsorted.and (List.pairwise_map.mp hdistinct)).imp fun hab =>
    ⟨(hr _ _).mpr hab.1.le, hab.2⟩

/-- For every fixed set of tasks and every query: following the cursors from the start ends
after at most one page for each matching task and one more, never fails, and returns exactly
the matching tasks in the requested order; and each cursor decodes to what it was made of. -/
theorem task_pagination_exact (validateDatetime : JsonScalar → Option UtcDatetime)
    (hvalidate : ∀ t : UtcDatetime, validateDatetime (.str t.isoformat) = some t)
    (tasks : List ListedTask) (hids : (tasks.map (·.taskId)).Nodup) (query : TaskListQuery) :
    (∃ result, ListsExactly query tasks result ∧
      ∀ pages, (tasks.filter query.selects).length < pages →
        followCursors validateDatetime tasks pages { query with cursor := none } = .ok result) ∧
      ∀ task : ListedTask, decodeTaskCursor validateDatetime { query with
        cursor := some (encodeTaskCursor task query.sortBy query.sortDirection) } =
          .ok (some (task.sortValue query.sortBy, task.taskId)) := by
  refine ⟨⟨query.results tasks, results_exact hids query, ?_⟩,
    fun task => decodeTaskCursor_encode validateDatetime hvalidate task query⟩
  intro pages hpages
  refine followCursors_rest hvalidate hids query pages (query.results tasks) [] none rfl
    (.inl ⟨rfl, rfl⟩) ?_
  rw [(results_exact hids query).once.length_eq]
  exact hpages

end

/-- A reader of aware datetimes that knows no text but that of `isoformat`. -/
def readIsoformat : JsonScalar → Option UtcDatetime
  | .str text => fromIsoformat text
  | _ => none

/-- A waiting task of the given name and priority. -/
def waitingTask (taskId : String) (priority : Int) (hid : isIdentifier "task" taskId.toList)
    (hpriority : -100 ≤ priority ∧ priority ≤ 100) : ListedTask where
  taskId := taskId
  status := .pending
  mediaCategory := none
  pipelineId := none
  backendName := none
  requestedRuntime := none
  createdAt := { year := 2025, month := 11, day := 3, hour := 9, minute := 34, second := 56,
                 microsecond := 250 }
  updatedAt := { year := 2025, month := 11, day := 3, hour := 9, minute := 34, second := 57,
                 microsecond := 750 }
  priority := priority
  id_valid := hid
  priority_valid := hpriority

/-- Two tasks of one creation time, listed one to a page. -/
theorem task_pagination_exact_tie :
    ∃ result, ListsExactly { limit := 1 }
        [waitingTask "task_00000001" 0 (by decide +kernel) (by decide),
          waitingTask "task_00000002" 5 (by decide +kernel) (by decide)] result ∧
      followCursors readIsoformat
        [waitingTask "task_00000001" 0 (by decide +kernel) (by decide),
          waitingTask "task_00000002" 5 (by decide +kernel) (by decide)] 3 { limit := 1 } =
        .ok result := by
  obtain ⟨result, hexact, hfollow⟩ := (task_pagination_exact readIsoformat
    fromIsoformat_isoformat [waitingTask "task_00000001" 0 (by decide +kernel) (by decide),
      waitingTask "task_00000002" 5 (by decide +kernel) (by decide)] (by decide)
    { limit := 1 }).1
  exact ⟨result, hexact, hfollow 3 (by decide)⟩

end ParserServe
