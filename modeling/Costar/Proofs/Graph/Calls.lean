import Costar.Graph.Calls
import Costar.Graph.Store
import Costar.Proofs.Log

/-!
# Calls and their sessions

A call opens a session, asks its query in it, reads the reply, and leaves the session with rows or
with a fault.  Only then are the rows read, or the fault raised as a failure.  This module follows a
sequence of calls step by step, and says at every moment which sessions are open.

Main results:

- Theorem `Fault.isOfStore_iff`: which faults are the store's.
- Theorems `Call.events_run` and `Call.result_run`: what the store sees of a call and what comes of
  it.
- Theorem `Calls.Follows.step`: a step keeps what has been seen and what has come of it.
- Theorem `Calls.isOver_steps`: the calls come to an end.
- Theorem `Calls.calls_release_sessions`: every call has a session of its own, which it has closed
  before anything comes of it.
-/

namespace Costar

/-- The faults of the store are those of the server and those of the driver, each with those that
are kinds of them. -/
theorem Fault.isOfStore_iff {fault : Fault} : fault.isOfStore = true ↔
    fault.kind ∈ [.server, .client, .driver, .unavailable, .sessionExpired] := by
  rcases fault with ⟨kind, message⟩
  cases kind <;> simp [isOfStore]

/-- The query that a call asks. -/
def Call.query (access : Access) : Call → Query
  | .findPath request => ⟨.traversal request.text, request.parameters, access.timeout⟩
  | .lookUpShow key => ⟨.showLookup, [("tv_id", key)], access.timeout⟩
  | .suggestNames name limit =>
    ⟨.nameSuggestion, [("name", .text name), ("limit", .int limit)], access.timeout⟩

theorem Run.events_map {α β : Type} (f : α → β) (x : Run α) : (f <$> x).events = x.events := by
  change (x >>= fun a => pure (f a)).events = x.events
  cases hx : x.result with
  | error e => rw [Run.bind_of_error hx]
  | ok a =>
      rw [Run.bind_of_ok hx]
      exact List.append_nil _

theorem Run.result_map {α β : Type} (f : α → β) (x : Run α) :
    (f <$> x).result = x.result.map f := by
  change (x >>= fun a => pure (f a)).result = x.result.map f
  cases hx : x.result with
  | error e => rw [Run.bind_of_error hx]; rfl
  | ok a => rw [Run.bind_of_ok hx]; rfl

theorem Failure.map_bind {α β γ : Type} (x : Except Failure α) (f : α → Except Failure β)
    (g : β → γ) : (x >>= f).map g = x >>= fun a => (f a).map g := by
  cases x <;> rfl

namespace Call

variable (access : Access) (db : Database) (c : Call)

/-- The store sees of a call one session, on the database of the access, with the query of the
call. -/
theorem events_run :
    (c.run access db).events = [.opened access.database, .ran (c.query access), .closed] := by
  cases c <;> exact (Run.events_map _ _).trans (Exchange.events_eq _)

/-- A call that has left its session reads the rows of the reply, if there are any. -/
theorem conclude_toExcept {c : Call} (reply : Reply c.Column) :
    c.conclude reply.toExcept = Access.rowsOf c.reported reply >>= c.convert := by
  cases reply <;> rfl

/-- What comes of a call follows from the rows of the reply or from the fault in their way. -/
theorem result_run :
    (c.run access db).result = c.conclude (c.exchange access db).reply.toExcept := by
  rw [conclude_toExcept]
  cases c <;> exact (Run.result_map _ _).trans (Failure.map_bind _ _ _)

/-- The wording of a failure as which a fault is reported ends in that of the fault. -/
theorem message_reported (c : Call) (fault : Fault) :
    ∃ lead, (c.reported fault).message = lead ++ fault.message := by
  cases c with
  | findPath request => exact ⟨"", (Text.empty_append _).symm⟩
  | lookUpShow key => exact ⟨_, rfl⟩
  | suggestNames name limit => exact ⟨_, rfl⟩

end Call

/-! ## Steps of a sequence of calls -/

namespace Calls

namespace Job

/-- What the store sees of a call. -/
def events (access : Access) (job : Job) : List Event :=
  [.opened access.database, .ran (job.call.query access), .closed]

/-- What comes of a call. -/
def result (access : Access) (job : Job) : Except Failure Answer :=
  job.call.conclude (job.reply access).toExcept

theorem database_exchange (access : Access) (job : Job) :
    (job.exchange access).database = access.database := by
  rcases job with ⟨call, db⟩
  cases call <;> rfl

theorem query_exchange (access : Access) (job : Job) :
    (job.exchange access).query = job.call.query access := by
  rcases job with ⟨call, db⟩
  cases call <;> rfl

end Job

namespace Stage

/-- The call that is being made. -/
def job? : Stage → Option Job
  | .idle => none
  | .within job _ => some job

/-- Whether a session is open. -/
def inSession : Stage → Bool
  | .within _ .opened => true
  | .within _ .asked => true
  | .within _ (.leaving _) => true
  | _ => false

/-- What the store has seen so far of the call that is being made. -/
def events (access : Access) : Stage → List Event
  | .idle => []
  | .within _ .idle => []
  | .within _ .opened => [.opened access.database]
  | .within job .asked => [.opened access.database, .ran (job.call.query access)]
  | .within job (.leaving _) => [.opened access.database, .ran (job.call.query access)]
  | .within job (.left _) => job.events access

/-- Whether what a call leaves its session with is what the store has replied. -/
def IsReplied (access : Access) : Stage → Prop
  | .within job (.leaving found) => found = (job.reply access).toExcept
  | .within job (.left found) => found = (job.reply access).toExcept
  | _ => True

/-- The number of steps that the call that is being made is away from its end, at most. -/
def stepsLeft : Stage → Nat
  | .idle => 0
  | .within _ .idle => 5
  | .within _ .opened => 4
  | .within _ .asked => 3
  | .within _ (.leaving _) => 2
  | .within _ (.left _) => 1

end Stage

namespace State

/-- Whether all calls have been made. -/
def IsOver (s : State) : Prop :=
  s.stage = .idle ∧ s.waiting = []

/-- The number of steps that a sequence of calls is away from its end, at most. -/
def stepsLeft (s : State) : Nat :=
  5 * s.waiting.length + s.stage.stepsLeft

theorem steps_succ (access : Access) (n : Nat) (s : State) :
    steps access (n + 1) s = (steps access n s).step access := by
  induction n generalizing s with
  | zero => rfl
  | succ n ih => exact ih (s.step access)

end State

variable {access : Access} {jobs : List Job} {s : State}

/-! ## What every step keeps -/

/-- What holds at every moment, some calls having been made: what the store has seen of them and
what has come of them, and what it has seen of the present one. -/
structure Follows (access : Access) (jobs finished : List Job) (s : State) : Prop where
  jobs : jobs = finished ++ s.stage.job?.toList ++ s.waiting
  events : s.events = finished.flatMap (Job.events access) ++ s.stage.events access
  results : s.results = finished.map (Job.result access)
  replied : s.stage.IsReplied access

/-- A step within an exchange adds what the store sees of it, and keeps what has been replied. -/
theorem step_exchange {job : Job} {stage : Exchange.Stage job.call.Column}
    (h : Stage.IsReplied access (.within job stage)) :
    (Stage.within job ((job.exchange access).step stage).1).events access =
        (Stage.within job stage).events access ++ ((job.exchange access).step stage).2 ∧
      Stage.IsReplied access (.within job ((job.exchange access).step stage).1) := by
  have hdatabase := job.database_exchange access
  have hquery := job.query_exchange access
  cases stage with
  | idle => simp [Exchange.step, Stage.events, Stage.IsReplied, hdatabase]
  | opened =>
      unfold Exchange.step Exchange.askedStage
      cases hreply : (job.exchange access).reply with
      | refused fault => simp [Stage.events, Stage.IsReplied, hquery, Job.reply, hreply, Reply.toExcept]
      | interrupted fault => simp [Stage.events, Stage.IsReplied, hquery]
      | rows rows => simp [Stage.events, Stage.IsReplied, hquery]
  | asked => simp [Exchange.step, Stage.events, Stage.IsReplied, Job.reply]
  | leaving found => exact ⟨rfl, h⟩
  | left found => exact ⟨(List.append_nil _).symm, h⟩

/-- A step keeps it; when the present call comes to its end, one more has been made. -/
theorem Follows.step {finished : List Job} (h : Follows access jobs finished s) :
    ∃ finished, Follows access jobs finished (s.step access) := by
  rcases s with ⟨waiting, stage, events, results⟩
  rcases h with ⟨hjobs, hevents, hresults, hreplied⟩
  obtain rfl : events = finished.flatMap (Job.events access) ++ stage.events access := hevents
  obtain rfl : results = finished.map (Job.result access) := hresults
  have hadvance : ∀ {job} stage {rest}, jobs = finished ++ [job] ++ rest →
      Stage.IsReplied access (.within job stage) →
      Follows access jobs finished (State.advance access
        ⟨rest, .idle, finished.flatMap (Job.events access) ++ (Stage.within job stage).events access,
          finished.map (Job.result access)⟩ job stage) := by
    intro job stage rest hrest hstage
    obtain ⟨hseen, hkept⟩ := step_exchange hstage
    have hevents := congrArg (finished.flatMap (Job.events access) ++ ·) hseen.symm
    exact ⟨hrest, (List.append_assoc ..).trans hevents, rfl, hkept⟩
  cases stage with
  | idle =>
      cases waiting with
      | nil => exact ⟨finished, hjobs, rfl, rfl, trivial⟩
      | cons job rest =>
          exact ⟨finished, hadvance .idle (by simpa [Stage.job?] using hjobs) trivial⟩
  | within job stage =>
      cases stage with
      | left found =>
          have hresult : job.call.conclude found = job.result access :=
            congrArg job.call.conclude hreplied
          refine ⟨finished ++ [job], ?_, ?_, ?_, trivial⟩
          · simpa [State.step, Stage.job?] using hjobs
          · simp [State.step, Stage.events]
          · simp [State.step, hresult]
      | _ => exact ⟨finished, hadvance _ hjobs hreplied⟩

/-- It holds after every number of steps. -/
theorem follows_after (access : Access) (jobs : List Job) (n : Nat) :
    ∃ finished, Follows access jobs finished (State.after access jobs n) := by
  induction n with
  | zero => exact ⟨[], rfl, rfl, rfl, trivial⟩
  | succ n ih =>
      rcases ih with ⟨finished, h⟩
      unfold State.after
      rw [State.steps_succ]
      exact h.step

/-! ## Open sessions -/

theorem unclosedOf_flatMap_events (access : Access) (jobs : List Job) :
    Log.unclosedOf (jobs.flatMap (Job.events access)) = 0 := by
  induction jobs with
  | nil => rfl
  | cons job rest ih =>
      rw [List.flatMap_cons, Log.unclosedOf_append, ih]
      rfl

/-- A session is open exactly while a call is in it. -/
theorem Follows.unclosedOf_events {finished : List Job} (h : Follows access jobs finished s) :
    Log.unclosedOf s.events = if s.stage.inSession then 1 else 0 := by
  rw [h.events, Log.unclosedOf_append, unclosedOf_flatMap_events]
  cases s.stage with
  | idle => rfl
  | within job stage => cases stage <;> rfl

/-- Something comes of a call only when it has left its session, with what the store has replied. -/
theorem results_step (s : State) :
    (s.step access).results = s.results ∨
      ∃ job found, s.stage = .within job (.left found) ∧
        (s.step access).results = s.results ++ [job.call.conclude found] := by
  rcases s with ⟨waiting, stage, events, results⟩
  cases stage with
  | idle => cases waiting <;> exact Or.inl rfl
  | within job stage =>
      cases stage with
      | left found => exact Or.inr ⟨job, found, rfl, rfl⟩
      | _ => exact Or.inl rfl

/-! ## The end of the calls -/

theorem step_of_isOver (h : s.IsOver) : s.step access = s := by
  unfold State.step
  rw [h.1, h.2]

theorem stepsLeft_step (access : Access) (h : ¬ s.IsOver) :
    (s.step access).stepsLeft < s.stepsLeft := by
  rcases s with ⟨waiting, stage, events, results⟩
  cases stage with
  | idle =>
      cases waiting with
      | nil => exact absurd ⟨rfl, rfl⟩ h
      | cons job rest =>
          simp [State.step, State.advance, Exchange.step, State.stepsLeft, Stage.stepsLeft]
          omega
  | within job stage =>
      cases stage with
      | opened =>
          have hasked : (Stage.within job (job.exchange access).askedStage).stepsLeft ≤ 3 := by
            unfold Exchange.askedStage
            split <;> simp [Stage.stepsLeft]
          change 5 * waiting.length + (Stage.within job (job.exchange access).askedStage).stepsLeft <
            5 * waiting.length + 4
          omega
      | _ => simp [State.step, State.advance, Exchange.step, State.stepsLeft, Stage.stepsLeft]

/-- The calls come to an end. -/
theorem isOver_steps {n : Nat} (h : s.stepsLeft ≤ n) : (State.steps access n s).IsOver := by
  induction n generalizing s with
  | zero =>
      by_cases hover : s.IsOver
      · exact hover
      · have := stepsLeft_step access hover
        omega
  | succ n ih =>
      refine ih ?_
      by_cases hover : s.IsOver
      · rw [step_of_isOver hover]
        have hzero : s.stepsLeft = 0 := by
          unfold State.stepsLeft
          rw [hover.1, hover.2]
          rfl
        omega
      · have := stepsLeft_step access hover
        omega

/-! ## Every call releases its session -/

/-- What becomes of a fault with which the store has replied to a call: the call fails, and if the
fault is the store's own it is reported with its wording, else it passes through. -/
theorem Job.result_of_fault {job : Job} {fault : Fault}
    (h : (job.reply access).toExcept = .error fault) :
    (fault.isOfStore = true → job.result access = .error (job.call.reported fault)) ∧
      (fault.isOfStore = false → job.result access = .error (.foreignFault fault)) := by
  have hresult : job.result access = .error (fault.raised job.call.reported) := by
    unfold Job.result
    rw [h]
    rfl
  rw [hresult, Fault.raised]
  constructor
  · intro hstore
    rw [if_pos hstore]
  · intro hforeign
    rw [if_neg (by simp [hforeign])]

/-- However the store replies to each of a sequence of calls, at every moment the store has seen the
whole session of every call that has been made and the present one as far as it has come, and a
session is open only while the present call is in it.  Something comes of a call only once it has
left its session, so that none is open then.  At the end, every call has had one session, on the
database and with the limit on its time that were configured, and what has come of it is what comes
of its run: what the rows are read as, or a failure for the fault that stood in their way. -/
theorem calls_release_sessions (access : Access) (jobs : List Job) :
    (∀ n, ∃ finished, Follows access jobs finished (State.after access jobs n) ∧
      Log.unclosedOf (State.after access jobs n).events =
        if (State.after access jobs n).stage.inSession then 1 else 0) ∧
    (∀ n, (State.after access jobs (n + 1)).results = (State.after access jobs n).results ∨
      ∃ job found, (State.after access jobs n).stage = .within job (.left found) ∧
        Log.unclosedOf (State.after access jobs n).events = 0 ∧
        (State.after access jobs (n + 1)).results =
          (State.after access jobs n).results ++ [job.call.conclude found]) ∧
    (∀ n, 5 * jobs.length ≤ n → State.after access jobs n =
      { waiting := []
        stage := .idle
        events := jobs.flatMap fun job => (job.call.run access job.database).events
        results := jobs.map fun job => (job.call.run access job.database).result }) ∧
    ∀ job ∈ jobs,
      (job.call.run access job.database).events =
        [.opened access.database, .ran (job.call.query access), .closed] ∧
      (∀ rows, job.reply access = .rows rows →
        (job.call.run access job.database).result = job.call.convert rows) ∧
      ∀ fault, job.reply access = .refused fault ∨ job.reply access = .interrupted fault →
        (fault.isOfStore = true →
          (job.call.run access job.database).result = .error (job.call.reported fault) ∧
            ∃ lead, (job.call.reported fault).message = lead ++ fault.message) ∧
        (fault.isOfStore = false →
          (job.call.run access job.database).result = .error (.foreignFault fault)) := by
  have hresult (job : Job) : (job.call.run access job.database).result = job.result access :=
    Call.result_run access job.database job.call
  have hevents (job : Job) : (job.call.run access job.database).events = job.events access :=
    Call.events_run access job.database job.call
  refine ⟨?_, ?_, ?_, ?_⟩
  · intro n
    rcases follows_after access jobs n with ⟨finished, h⟩
    exact ⟨finished, h, h.unclosedOf_events⟩
  · intro n
    rcases follows_after access jobs n with ⟨finished, h⟩
    unfold State.after at h ⊢
    rw [State.steps_succ]
    rcases results_step _ with hsame | ⟨job, found, hleft, hresults⟩
    · exact Or.inl hsame
    · refine Or.inr ⟨job, found, hleft, ?_, hresults⟩
      rw [h.unclosedOf_events, hleft]
      rfl
  · intro n hn
    have hover : (State.after access jobs n).IsOver := isOver_steps hn
    rcases follows_after access jobs n with ⟨finished, h⟩
    generalize State.after access jobs n = s at h hover ⊢
    rcases s with ⟨waiting, stage, events, results⟩
    obtain ⟨rfl, rfl⟩ := hover
    obtain rfl : jobs = finished := by simpa [Stage.job?] using h.jobs
    have hseen : events = jobs.flatMap (Job.events access) := by
      simpa [Stage.events] using h.events
    rw [hseen, show results = jobs.map (Job.result access) from h.results]
    simp only [hresult, hevents]
  · intro job _
    refine ⟨hevents job, ?_, ?_⟩
    · intro rows hrows
      rw [hresult, Job.result, hrows]
      rfl
    · intro fault hfault
      have hreply : (job.reply access).toExcept = .error fault := by
        rcases hfault with hrefused | hinterrupted
        · rw [hrefused]
          rfl
        · rw [hinterrupted]
          rfl
      rw [hresult]
      rcases Job.result_of_fault hreply with ⟨hstore, hforeign⟩
      exact ⟨fun h => ⟨hstore h, job.call.message_reported fault⟩, hforeign⟩

/-- A store that is down while paths are sought, and in whose entities a value cannot be read. -/
def faultyStore : Database where
  paths := fun _ => .refused ⟨.unavailable, "no server"⟩
  entities := fun _ => .interrupted ⟨.value, "year 0"⟩
  connectFault := none

/-- The fault of the store is reported as that of the query, the other one as it is, and both
sessions are closed, while the first one is open before its query has been asked. -/
theorem calls_release_sessions_faulty :
    let access : Access := ⟨some "films", .int 30⟩
    let path : Job := ⟨.findPath ⟨1, 2, [], [], []⟩, faultyStore⟩
    let looked : Job := ⟨.lookUpShow (.int 7), faultyStore⟩
    Log.unclosedOf (State.after access [path, looked] 1).events = 1 ∧
      State.after access [path, looked] 10 = {
        waiting := []
        stage := .idle
        events := path.events access ++ looked.events access
        results := [.error (.traversalFailed ⟨.unavailable, "no server"⟩),
          .error (.foreignFault ⟨.value, "year 0"⟩)] } := by
  intro access path looked
  obtain ⟨-, -, hend, hjobs⟩ := calls_release_sessions access [path, looked]
  obtain ⟨hpathEvents, -, hpath⟩ := hjobs path List.mem_cons_self
  obtain ⟨hlookedEvents, -, hlooked⟩ := hjobs looked (List.mem_cons_of_mem _ List.mem_cons_self)
  obtain ⟨hreported, -⟩ := (hpath ⟨.unavailable, "no server"⟩ (.inl rfl)).1 rfl
  have hforeign := (hlooked ⟨.value, "year 0"⟩ (.inr rfl)).2 rfl
  refine ⟨rfl, (hend 10 (by decide)).trans ?_⟩
  simp only [List.flatMap_cons, List.flatMap_nil, List.map_cons, List.map_nil, hpathEvents,
    hlookedEvents, hreported, hforeign]
  rfl

end Calls

end Costar
