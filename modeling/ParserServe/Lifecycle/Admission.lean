import ParserServe.Control.Ranking
import ParserServe.Lifecycle.Progress

/-! # Which worker is admitted

Admission, the runtimes available and the choice of a device are three computations over the
same reports.  They agree: a stage that some worker could execute is accepted by exactly one
worker, and that one does not skip it.
-/

namespace ParserServe

open Foundation

variable {self : StageScheduler} {db : Db} {task : TaskRecord} {stage : StageRecord}
  {worker other : WorkerRecord}

/-- The state of the loop of `lease` before anything is granted. -/
def firstState (db : Db) (deviceCounts : String → Nat) : LeaseState where
  db := db
  leases := []
  deviceCounts := deviceCounts

/-- What `lease` fixes for a worker, with the slots asked for, the tokens drawn and the time. -/
def leaseCall (db : Db) (worker : WorkerRecord) (slots : Nat) (tokens : Nat → String)
    (now : Time) : LeaseCall where
  worker := worker
  activeCount := db.activeStageCount worker.workerId
  slots := slots
  candidateWorkers := db.workers.filter (·.acceptsLeases)
  activeCounts := db.activeStageCount
  tokens := tokens
  now := now

/-- An accepted worker places the stage. -/
theorem placement_isSome (hworker : self.Eligible db task stage worker)
    (haccepts : self.accepts db task stage worker) (hready : task.dependenciesSatisfied stage)
    (slots : Nat) (tokens : Nat → String) (now : Time) (deviceCounts : String → Nat) :
    (self.placement (leaseCall db worker slots tokens now) (firstState db deviceCounts) task
      stage).isSome := by
  obtain ⟨⟨backend, runtime⟩, hbackend⟩ := Option.ne_none_iff_exists'.mp hworker.backend
  have hselected := selected_of_selectBackend hbackend
  obtain ⟨deviceId, hdevice⟩ := Option.isSome_iff_exists.mp
    (selectDeviceId_isSome hselected.available deviceCounts)
  obtain ⟨metadata, hmetadata⟩ := Option.isSome_iff_exists.mp hselected.source
  have hlabels := hworker.labels
  unfold StageScheduler.backendFor at hbackend
  unfold StageScheduler.accepts at haccepts
  simp [StageScheduler.placement, leaseCall, firstState, hready, hlabels, hbackend, haccepts,
    hdevice, hmetadata]

/-- A stage some worker is eligible for is accepted by exactly one worker, which is eligible
and finds a backend, a runtime and a device for it. -/
theorem admission_unique (heligible : ∃ worker, self.Eligible db task stage worker) :
    ∃ worker, (∀ other ∈ db.workers, self.accepts db task stage other ↔ other = worker) ∧
      self.Eligible db task stage worker ∧
      (∃ backend runtime, self.backendFor db task stage worker = some (backend, runtime) ∧
        ∀ activeCounts, (self.selectDeviceId worker runtime
          task.options.device.minimumMemoryBytes activeCounts).isSome) ∧
      (task.dependenciesSatisfied stage → ∀ slots tokens now deviceCounts,
        (self.placement (leaseCall db worker slots tokens now) (firstState db deviceCounts) task
          stage).isSome) := by
  obtain ⟨found, hfound⟩ := heligible
  obtain ⟨worker, hmem, haccepts⟩ := exists_accepts hfound
  have hworker := (eligible_of_accepts haccepts hmem).1
  refine ⟨worker, fun other hother => ⟨fun h => ?_, fun h => h ▸ haccepts⟩, hworker, ?_,
    fun hready slots tokens now deviceCounts =>
      placement_isSome hworker haccepts hready slots tokens now deviceCounts⟩
  · have hid : some other.workerId = some worker.workerId :=
      (accepts_iff.mp h).symm.trans (accepts_iff.mp haccepts)
    exact List.inj_on_of_nodup_map db.workers_nodup hother hmem (Option.some.inj hid)
  · obtain ⟨⟨backend, runtime⟩, hbackend⟩ := Option.ne_none_iff_exists'.mp hworker.backend
    exact ⟨backend, runtime, hbackend,
      selectDeviceId_isSome (selected_of_selectBackend hbackend).available⟩

/-- The sample task is routed and nothing is leased yet. -/
def routedDb : Db := afterScript sampleScheduler sampleDb (leaseScript.take 2)

def secondWorker : WorkerRecord := { sampleWorker with workerId := "second" }

/-- Two workers of the same weight could take the stages. -/
def sharedDb : Db := { routedDb with
  workers := [sampleWorker, secondWorker], workers_nodup := by decide +kernel }

theorem admission_unique_routed : ∃ task ∈ sharedDb.tasks, ∃ stage ∈ task.stages,
    stage.status = .pending ∧ sampleScheduler.Eligible sharedDb task stage sampleWorker ∧
      sampleScheduler.Eligible sharedDb task stage secondWorker ∧ ∃ worker,
        (∀ other ∈ sharedDb.workers, sampleScheduler.accepts sharedDb task stage other ↔
          other = worker) ∧ sampleScheduler.Eligible sharedDb task stage worker := by
  have hready : ∃ task ∈ sharedDb.tasks, ∃ stage ∈ task.stages, stage.status = .pending ∧
      ∀ worker ∈ sharedDb.workers, sharedDb.activeStageCount worker.workerId < 4 ∧
        labelsMatch worker task.options ∧
        sampleScheduler.backendFor sharedDb task stage worker ≠ none := by
    decide +kernel
  obtain ⟨task, htask, stage, hstage, hpending, hworkers⟩ := hready
  have hfirst : sampleScheduler.Eligible sharedDb task stage sampleWorker := by
    obtain ⟨hslot, hlabels, hbackend⟩ := hworkers sampleWorker List.mem_cons_self
    exact ⟨List.mem_cons_self, rfl, .inl rfl, hslot, hlabels, hbackend⟩
  have hsecond : sampleScheduler.Eligible sharedDb task stage secondWorker := by
    have hmem : secondWorker ∈ sharedDb.workers := List.mem_cons_of_mem _ List.mem_cons_self
    obtain ⟨hslot, hlabels, hbackend⟩ := hworkers secondWorker hmem
    exact ⟨hmem, rfl, .inl rfl, hslot, hlabels, hbackend⟩
  obtain ⟨worker, hunique, hworker, _⟩ := admission_unique ⟨sampleWorker, hfirst⟩
  exact ⟨task, htask, stage, hstage, hpending, hfirst, hsecond, worker, hunique, hworker⟩

end ParserServe
