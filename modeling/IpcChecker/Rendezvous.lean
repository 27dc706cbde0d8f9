import IpcChecker.Actors
import IpcChecker.Shared.Plans

/-!
# How the processes find each other

Each process constructs its parts and makes its connections one after another before it
runs, and ends if one of the calls throws. A server of a socket then waits for its client,
and a client tries again until it finds its server; a client of shared memory may fall
asleep over a ring that is not initialized yet. The connections are made in an order in
which no process waits for one that waits for it.
-/

namespace IpcChecker.Rendezvous
open Shared Actors
set_option autoImplicit false

inductive Process where
  | analyzer
  | consumer
  | producer
  deriving DecidableEq

instance : Fintype Process where
  elems := {.analyzer, .consumer, .producer}
  complete p := by cases p <;> decide

/-- What the processes do before they run, as far as it can throw or wait. The constructor of a
server is split where its clients can find it: `mkfifo` or `ftruncate` is before that, and the
calls after it are `finishServer`. -/
inductive Action where
  | schedSetAffinity (p : Process)
  | generator
  | measurer (p : Process) (c : Connection)
  | constructClient (c : Connection)
  | connect (c : Connection)
  | constructServer (c : Connection)
  | finishServer (c : Connection)
  | accept (c : Connection)
  | setBufferSize (p : Process) (c : Connection)
  | getBufferSize (p : Process) (c : Connection)
  | setNoDelay (c : Connection)
  deriving DecidableEq

/-- The types of the ends of the connections, and the processes that were given a size for the
buffer of theirs. -/
structure Arrangement where
  clientType : Connection → ConnectionType
  serverType : Connection → ConnectionType
  sized : Process → Bool

/-- What the connections of a measurement are like: also whether a FIFO lies under a server's
name already, and whether the client looks where its server is. -/
structure Ends extends Arrangement where
  fifo : Connection → Bool
  meets : Connection → Bool

/-- What the calls to the system do: the actions that throw, and whether a client that sleeps in
`WaitInitialized` is woken once another process has set the flag. -/
structure System where
  refuses : Action → Bool
  wakes : Bool

/-! `CreateDependencyFromParams` of the parameters of the ends. -/

def createServer (c : Connection) : ConnectionType → List Action
  | .kNetSocket => [.constructServer c, .accept c]
  | .kPipe => [.constructServer c, .finishServer c]
  | .kSharedMemory => [.constructServer c, .finishServer c]
  | .kUnixSocket => [.constructServer c, .accept c]

def createClient (c : Connection) : ConnectionType → List Action
  | .kNetSocket => [.constructClient c, .connect c, .setNoDelay c]
  | _ => [.constructClient c, .connect c]

/-- The size is set if there is one, and read back in any case. -/
def bufferSizeCalls (p : Process) (c : Connection) (sized : Bool) : List Action :=
  if sized then [.setBufferSize p c, .getBufferSize p c] else [.getBufferSize p c]

/-- The Consumer's server. `GetBufferSize` of shared memory does not throw. -/
def createConsumerServer (sized : Bool) : ConnectionType → List Action
  | .kNetSocket =>
    createServer .consumerProducer .kNetSocket ++ bufferSizeCalls .consumer .consumerProducer sized
  | type => createServer .consumerProducer type

/-- The Producer's client. The client of shared memory has no `SetBufferSize`. -/
def createProducerClient (sized : Bool) : ConnectionType → List Action
  | .kNetSocket => [.constructClient .consumerProducer, .connect .consumerProducer] ++
      bufferSizeCalls .producer .consumerProducer sized ++ [.setNoDelay .consumerProducer]
  | .kSharedMemory => [.constructClient .consumerProducer, .connect .consumerProducer]
  | _ => [.constructClient .consumerProducer, .connect .consumerProducer] ++
      bufferSizeCalls .producer .consumerProducer sized

section Plans
variable (arrangement : Arrangement)

/-! `ModeMaker` creates the dependencies in the order of their parameters. -/

def createAnalyzer : List Action :=
  [.measurer .analyzer .measurerConsumer, .measurer .analyzer .measurerProducer] ++
    createServer .measurerConsumer (arrangement.serverType .measurerConsumer) ++
    createServer .measurerProducer (arrangement.serverType .measurerProducer)

def createConsumer : List Action :=
  [.measurer .consumer .measurerConsumer] ++
    createClient .measurerConsumer (arrangement.clientType .measurerConsumer) ++
    createConsumerServer (arrangement.sized .consumer) (arrangement.serverType .consumerProducer)

def createProducer : List Action :=
  [.generator, .measurer .producer .measurerProducer] ++
    createClient .measurerProducer (arrangement.clientType .measurerProducer) ++
    createProducerClient (arrangement.sized .producer) (arrangement.clientType .consumerProducer)

/-- All that a process does before `Run`. -/
def plan : Process → List Action
  | .analyzer => createAnalyzer arrangement
  | .consumer => .schedSetAffinity .consumer :: createConsumer arrangement
  | .producer => .schedSetAffinity .producer :: createProducer arrangement

end Plans

/-- No call on the way to `Run` throws. -/
def System.Permits (system : System) (arrangement : Arrangement) : Prop :=
  ∀ p, ∀ action ∈ plan arrangement p, system.refuses action = false

instance (system : System) (arrangement : Arrangement) :
    Decidable (system.Permits arrangement) :=
  inferInstanceAs (Decidable (∀ _, ∀ _ ∈ _, _))

def client : Connection → Process
  | .consumerProducer => .producer
  | .measurerProducer => .producer
  | .measurerConsumer => .consumer

def server : Connection → Process
  | .consumerProducer => .consumer
  | .measurerProducer => .analyzer
  | .measurerConsumer => .analyzer

/-- `present` are the servers that a client can find, `initialized` those whose constructor is
done, and `joined` those that their client has found. -/
structure State where
  todo : Plans Process Action
  present : Connection → Bool
  initialized : Connection → Bool
  joined : Connection → Bool
  asleep : Connection → Bool
  ended : Process → Bool

/-- A FIFO that was left behind is opened by the next server and by clients alike. -/
def Ends.left (ends : Ends) (c : Connection) : Bool := ends.fifo c && ends.serverType c == .kPipe

def start (ends : Ends) : State where
  todo := plan ends.toArrangement
  present := ends.left
  initialized _ := false
  joined _ := false
  asleep _ := false
  ended _ := false

namespace State

/-- Whether a call that the system permits returns, and for `Connect` whether it returns true.
`Accept` waits for a client, and a client of shared memory for the flag. -/
def ready (system : System) (ends : Ends) (s : State) : Action → Bool
  | .connect c => ends.meets c && s.present c &&
      (ends.serverType c != .kSharedMemory || s.initialized c) && (!s.asleep c || system.wakes)
  | .accept c => s.joined c
  | _ => true

def perform (s : State) (p : Process) (rest : List Action) : Action → State
  | .connect c =>
    { s with
      todo := Function.update s.todo p rest
      joined := Function.update s.joined c true
      asleep := Function.update s.asleep c false }
  | .constructServer c =>
    { s with todo := Function.update s.todo p rest, present := Function.update s.present c true }
  | .finishServer c =>
    { s with
      todo := Function.update s.todo p rest
      initialized := Function.update s.initialized c true }
  | _ => { s with todo := Function.update s.todo p rest }

end State

/-- A client that looks elsewhere may find something there, and a server may be found by such a
client. -/
def Ends.strays (ends : Ends) : Action → Bool
  | .connect c => !ends.meets c
  | .accept _ => !(ends.meets .consumerProducer && ends.meets .measurerProducer &&
      ends.meets .measurerConsumer)
  | _ => false

/-- The turns of a process, with what it got done. A process that has ended takes none. -/
inductive Steps (system : System) (ends : Ends) (s : State) :
    Process × Option Action → State → Prop where
  | returns {p : Process} {action : Action} {rest : List Action} :
      s.todo p = action :: rest → s.ended p = false → system.refuses action = false →
      s.ready system ends action = true →
      Steps system ends s (p, some action) (s.perform p rest action)
  | strays {p : Process} {action : Action} {rest : List Action} :
      s.todo p = action :: rest → s.ended p = false → system.refuses action = false →
      ends.strays action = true →
      Steps system ends s (p, some action) { s with todo := Function.update s.todo p rest }
  -- `Connect` that returned false is called again, and the flag is looked at again. Of a process
  -- that has ended there may be something left to find, or nothing.
  | again {p : Process} {c : Connection} {rest : List Action} :
      s.todo p = .connect c :: rest → s.ended p = false → s.asleep c = false →
      s.ready system ends (.connect c) = false ∨ s.ended (server c) = true →
      Steps system ends s (p, none) s
  | sleeps {p : Process} {c : Connection} {rest : List Action} :
      s.todo p = .connect c :: rest → s.ended p = false → s.asleep c = false →
      ends.meets c = true → ends.serverType c = .kSharedMemory → s.present c = true →
      s.initialized c = false →
      Steps system ends s (p, none) { s with asleep := Function.update s.asleep c true }
  | throws {p : Process} {action : Action} {rest : List Action} :
      s.todo p = action :: rest → s.ended p = false → system.refuses action = true →
      (∀ c, action = .connect c → s.asleep c = false) →
      Steps system ends s (p, none) { s with ended := Function.update s.ended p true }

/-- What was got done, without the other turns. -/
def progress (es : List (Process × Option Action)) : List (Process × Action) :=
  es.filterMap fun e => e.2.map fun action => (e.1, action)

/-- All processes have come to run, each client connected to its own server. -/
structure State.Completed (s : State) : Prop where
  finished : s.todo.Finished
  joined : ∀ c, s.joined c = true

/-- The start can still come to its end. -/
def CanComplete (system : System) (ends : Ends) (s : State) : Prop :=
  ∃ es t, Run (Steps system ends) s es t ∧ t.Completed

/-! The plans, and what their actions wait for. -/

def owner : Action → Process
  | .schedSetAffinity p => p
  | .generator => .producer
  | .measurer p _ => p
  | .constructClient c => client c
  | .connect c => client c
  | .constructServer c => server c
  | .finishServer c => server c
  | .accept c => server c
  | .setBufferSize p _ => p
  | .getBufferSize p _ => p
  | .setNoDelay c => client c

/-- The connections in the order in which they are made. -/
def order : Connection → Nat
  | .measurerConsumer => 0
  | .measurerProducer => 1
  | .consumerProducer => 2

def rank : Action → Nat
  | .schedSetAffinity _ => 0
  | .generator => 0
  | .measurer _ _ => 0
  | .constructClient c => 3 * order c
  | .constructServer c => 3 * order c
  | .finishServer c => 3 * order c
  | .connect c => 3 * order c + 1
  | .accept c => 3 * order c + 2
  | .setBufferSize _ c => 3 * order c + 2
  | .getBufferSize _ c => 3 * order c + 2
  | .setNoDelay c => 3 * order c + 2

/-- A client needs the server, unless it can open a FIFO that was left, and in shared memory the
whole of its constructor; `Accept` needs the client. -/
def needs (ends : Ends) : Action → Action → Prop
  | .connect c, .constructServer c' => c' = c ∧ ends.left c = false
  | .connect c, .finishServer c' => c' = c ∧ ends.serverType c = .kSharedMemory
  | .accept c, .connect c' => c' = c
  | _, _ => False

theorem rank_of_needs {ends : Ends} (a b : Action) (h : needs ends a b) : rank b < rank a := by
  unfold needs at h
  split at h
  · obtain ⟨rfl, _⟩ := h
    exact Nat.lt_succ_self _
  · obtain ⟨rfl, _⟩ := h
    exact Nat.lt_succ_self _
  · subst h
    exact Nat.lt_succ_self _
  · cases h

/-! No plan is longer than these. -/

def fullServer (c : Connection) : List Action :=
  [.constructServer c, .finishServer c, .accept c]

def fullClient (c : Connection) : List Action := [.constructClient c, .connect c]

def fullBufferSize (p : Process) (c : Connection) : List Action :=
  [.setBufferSize p c, .getBufferSize p c]

def fullPlan : Process → List Action
  | .analyzer => [.measurer .analyzer .measurerConsumer, .measurer .analyzer .measurerProducer] ++
      fullServer .measurerConsumer ++ fullServer .measurerProducer
  | .consumer => [.schedSetAffinity .consumer] ++ ([.measurer .consumer .measurerConsumer] ++
      (fullClient .measurerConsumer ++ [.setNoDelay .measurerConsumer]) ++
      (fullServer .consumerProducer ++ fullBufferSize .consumer .consumerProducer))
  | .producer => [.schedSetAffinity .producer] ++
      ([.generator, .measurer .producer .measurerProducer] ++
      (fullClient .measurerProducer ++ [.setNoDelay .measurerProducer]) ++
      (fullClient .consumerProducer ++ fullBufferSize .producer .consumerProducer ++
        [.setNoDelay .consumerProducer]))

theorem createServer_sublist (c : Connection) (type : ConnectionType) :
    (createServer c type).Sublist (fullServer c) := by
  cases type with
  | kNetSocket => exact ((List.Sublist.refl _).cons _).cons_cons _
  | kPipe => exact List.sublist_append_left [_, _] [_]
  | kSharedMemory => exact List.sublist_append_left [_, _] [_]
  | kUnixSocket => exact ((List.Sublist.refl _).cons _).cons_cons _

theorem createClient_sublist (c : Connection) (type : ConnectionType) :
    (createClient c type).Sublist (fullClient c ++ [.setNoDelay c]) := by
  cases type with
  | kNetSocket => exact List.Sublist.refl _
  | _ => exact List.sublist_append_left (fullClient c) _

theorem bufferSizeCalls_sublist (p : Process) (c : Connection) (sized : Bool) :
    (bufferSizeCalls p c sized).Sublist (fullBufferSize p c) := by
  cases sized with
  | true => exact List.Sublist.refl _
  | false => exact (List.Sublist.refl _).cons _

theorem createConsumerServer_sublist (sized : Bool) (type : ConnectionType) :
    (createConsumerServer sized type).Sublist
      (fullServer .consumerProducer ++ fullBufferSize .consumer .consumerProducer) := by
  have hserver : (createServer .consumerProducer type).Sublist
      (fullServer .consumerProducer ++ fullBufferSize .consumer .consumerProducer) :=
    (createServer_sublist _ _).trans (List.sublist_append_left _ _)
  cases type with
  | kNetSocket => exact (createServer_sublist _ _).append (bufferSizeCalls_sublist _ _ _)
  | kPipe => exact hserver
  | kSharedMemory => exact hserver
  | kUnixSocket => exact hserver

theorem createProducerClient_sublist (sized : Bool) (type : ConnectionType) :
    (createProducerClient sized type).Sublist (fullClient .consumerProducer ++
      fullBufferSize .producer .consumerProducer ++ [.setNoDelay .consumerProducer]) := by
  have hcalls : (fullClient .consumerProducer ++
      bufferSizeCalls .producer .consumerProducer sized).Sublist (fullClient .consumerProducer ++
        fullBufferSize .producer .consumerProducer) :=
    (List.Sublist.refl _).append (bufferSizeCalls_sublist _ _ _)
  cases type with
  | kNetSocket => exact hcalls.append (List.Sublist.refl _)
  | kPipe => exact hcalls.trans (List.sublist_append_left _ _)
  | kSharedMemory => exact List.sublist_append_left (fullClient .consumerProducer) _
  | kUnixSocket => exact hcalls.trans (List.sublist_append_left _ _)

theorem plan_sublist (arrangement : Arrangement) (p : Process) :
    (plan arrangement p).Sublist (fullPlan p) := by
  cases p with
  | analyzer =>
    exact ((List.Sublist.refl _).append (createServer_sublist _ _)).append
      (createServer_sublist _ _)
  | consumer =>
    exact (((List.Sublist.refl _).append (createClient_sublist _ _)).append
      (createConsumerServer_sublist _ _)).cons_cons _
  | producer =>
    exact (((List.Sublist.refl _).append (createClient_sublist _ _)).append
      (createProducerClient_sublist _ _)).cons_cons _

theorem fullPlan_separate : Plans.Separate owner fullPlan := by
  constructor
  · intro p
    cases p <;> decide
  · intro p a hmem
    have howned : ∀ a ∈ fullPlan p, owner a = p := by
      cases p <;> decide
    exact howned a hmem

theorem fullPlan_ordered : Plans.Ordered rank fullPlan := by
  intro p
  cases p <;> decide

/-! Every connection is in the plans of its two processes. -/

theorem mem_createServer_construct (c : Connection) (type : ConnectionType) :
    .constructServer c ∈ createServer c type := by
  cases type <;> exact List.mem_cons_self

theorem mem_createServer_finish (c : Connection) :
    .finishServer c ∈ createServer c .kSharedMemory := List.mem_cons_of_mem _ List.mem_cons_self

theorem mem_createConsumerServer {action : Action} {sized : Bool} {type : ConnectionType}
    (h : action ∈ createServer .consumerProducer type) :
    action ∈ createConsumerServer sized type := by
  cases type with
  | kNetSocket => exact List.mem_append_left _ h
  | _ => exact h

theorem mem_plan_server {arrangement : Arrangement} {c : Connection} {action : Action}
    (h : action ∈ createServer c (arrangement.serverType c)) :
    action ∈ plan arrangement (server c) := by
  cases c with
  | consumerProducer =>
    exact List.mem_cons_of_mem _ (List.mem_append_right _ (mem_createConsumerServer h))
  | measurerProducer => exact List.mem_append_right _ h
  | measurerConsumer => exact List.mem_append_left _ (List.mem_append_right _ h)

theorem mem_createClient_connect (c : Connection) (type : ConnectionType) :
    .connect c ∈ createClient c type := by
  cases type <;> exact List.mem_cons_of_mem _ List.mem_cons_self

theorem mem_createProducerClient_connect (sized : Bool) (type : ConnectionType) :
    .connect .consumerProducer ∈ createProducerClient sized type := by
  cases type <;> exact List.mem_cons_of_mem _ List.mem_cons_self

theorem mem_plan_connect (arrangement : Arrangement) (c : Connection) :
    .connect c ∈ plan arrangement (client c) := by
  cases c with
  | consumerProducer =>
    exact List.mem_cons_of_mem _
      (List.mem_append_right _ (mem_createProducerClient_connect _ _))
  | measurerProducer =>
    exact List.mem_cons_of_mem _
      (List.mem_append_left _ (List.mem_append_right _ (mem_createClient_connect _ _)))
  | measurerConsumer =>
    exact List.mem_cons_of_mem _
      (List.mem_append_left _ (List.mem_append_right _ (mem_createClient_connect _ _)))

/-! One turn. -/

section Turn
variable {system : System} {ends : Ends} {s t : State} {p : Process} {action : Action}
variable {rest : List Action} {c : Connection}

@[simp] theorem perform_todo : (s.perform p rest action).todo = Function.update s.todo p rest := by
  cases action <;> rfl

@[simp] theorem perform_ended : (s.perform p rest action).ended = s.ended := by
  cases action <;> rfl

theorem update_true {f : Connection → Bool} {c c' : Connection} :
    Function.update f c true c' = true ↔ f c' = true ∨ c = c' := by
  by_cases hc : c' = c
  · subst hc
    simp
  · rw [Function.update_of_ne hc]
    exact ⟨Or.inl, fun h => h.resolve_right fun hsame => hc hsame.symm⟩

theorem perform_present : (s.perform p rest action).present c = true ↔
    s.present c = true ∨ action = .constructServer c := by
  cases action with
  | constructServer c' => simp only [State.perform, update_true, Action.constructServer.injEq]
  | _ => simp [State.perform]

theorem perform_initialized : (s.perform p rest action).initialized c = true ↔
    s.initialized c = true ∨ action = .finishServer c := by
  cases action with
  | finishServer c' => simp only [State.perform, update_true, Action.finishServer.injEq]
  | _ => simp [State.perform]

theorem perform_joined : (s.perform p rest action).joined c = true ↔
    s.joined c = true ∨ action = .connect c := by
  cases action with
  | connect c' => simp only [State.perform, update_true, Action.connect.injEq]
  | _ => simp [State.perform]

theorem perform_asleep : (s.perform p rest action).asleep c = true ↔
    s.asleep c = true ∧ action ≠ .connect c := by
  cases action with
  | connect c' =>
    by_cases hc : c = c'
    · subst hc
      simp [State.perform]
    · simp [State.perform, Function.update_of_ne hc, Ne.symm hc]
  | _ => simp [State.perform]

/-- What was got done is taken off the front of its plan. -/
theorem step_some (h : Steps system ends s (p, some action) t) :
    Plans.Steps (fun _ _ => False) s.todo (p, action) t.todo := by
  cases h with
  | returns hplan _ _ _ => exact ⟨_, hplan, nofun, perform_todo⟩
  | strays hplan _ _ _ => exact ⟨_, hplan, nofun, rfl⟩

theorem step_none (h : Steps system ends s (p, none) t) : t.todo = s.todo := by
  cases h <;> rfl

/-- Without the other turns a run goes through the plans. -/
theorem plans_run {es : List (Process × Option Action)} (hrun : Run (Steps system ends) s es t) :
    Run (Plans.Steps fun _ _ => False) s.todo (progress es) t.todo := by
  induction hrun with
  | start => exact .start
  | @step es e u v _ hstep ih =>
    obtain ⟨p, done⟩ := e
    unfold progress
    rw [List.filterMap_append]
    cases done with
    | none =>
      rw [List.filterMap_cons_none rfl, List.filterMap_nil, List.append_nil, step_none hstep]
      exact ih
    | some action => exact ih.step (step_some hstep)

/-- Only the flag wakes a client. -/
theorem asleep_stays (hwakes : system.wakes = false) {e : Process × Option Action}
    (h : Steps system ends s e t) (hasleep : s.asleep c = true) : t.asleep c = true := by
  cases h with
  | @returns p action rest _ _ _ hready =>
    refine perform_asleep.mpr ⟨hasleep, ?_⟩
    rintro rfl
    simp [State.ready, hasleep, hwakes] at hready
  | strays => exact hasleep
  | again => exact hasleep
  | sleeps => exact update_true.mpr (.inl hasleep)
  | throws => exact hasleep

end Turn

/-- What can be told from what is still to be done. -/
structure Invariant (system : System) (ends : Ends) (s : State) : Prop where
  rest : ∀ p, s.todo p <:+ plan ends.toArrangement p
  permitted : ∀ p, ∀ action ∈ plan ends.toArrangement p,
    action ∈ s.todo p ∨ system.refuses action = false
  present : ∀ c, s.present c = true ↔ ends.left c = true ∨ s.todo.Gone (.constructServer c)
  initialized : ∀ c, ends.serverType c = .kSharedMemory → s.todo.Gone (.finishServer c) →
    s.initialized c = true
  joined : ∀ c, s.todo.Gone (.connect c) → s.joined c = true ∨ ends.meets c = false
  met : ∀ c, s.joined c = true → s.present c = true ∧ ends.meets c = true
  asleep : ∀ c, s.asleep c = true →
    ends.meets c = true ∧ ends.serverType c = .kSharedMemory ∧ .connect c ∈ s.todo (client c)
  ended : ∀ p, s.ended p = true → ∃ action ∈ plan ends.toArrangement p, system.refuses action = true

theorem start_invariant (system : System) (ends : Ends) : Invariant system ends (start ends) where
  rest _ := List.suffix_refl _
  permitted _ _ hmem := .inl hmem
  present c := by
    refine ⟨Or.inl, fun h => h.resolve_right fun hgone => ?_⟩
    exact hgone (server c) (mem_plan_server (mem_createServer_construct _ _))
  initialized c htype hgone := by
    have hmem : .finishServer c ∈ createServer c (ends.serverType c) := by
      rw [htype]
      exact mem_createServer_finish c
    exact absurd (mem_plan_server hmem) (hgone (server c))
  joined c hgone := absurd (mem_plan_connect _ c) (hgone (client c))
  met := nofun
  asleep := nofun
  ended := nofun

namespace Invariant
variable {system : System} {ends : Ends} {s t : State} {p : Process} {action : Action}
variable {rest : List Action}

theorem separate (h : Invariant system ends s) : Plans.Separate owner s.todo :=
  fullPlan_separate.sublist fun p => (h.rest p).sublist.trans (plan_sublist _ p)

theorem ordered (h : Invariant system ends s) : Plans.Ordered rank s.todo :=
  fullPlan_ordered.sublist fun p => (h.rest p).sublist.trans (plan_sublist _ p)

/-- What a step that gets an action done means for what is still to be done. -/
theorem todo_step (h : Invariant system ends s)
    (hstep : Plans.Steps (fun _ _ => False) s.todo (p, action) t.todo)
    (hpermits : system.refuses action = false) :
    (∀ p, t.todo p <:+ plan ends.toArrangement p) ∧
    (∀ p, ∀ b ∈ plan ends.toArrangement p, b ∈ t.todo p ∨ system.refuses b = false) ∧
    ∀ b, t.todo.Gone b ↔ s.todo.Gone b ∨ b = action := by
  refine ⟨fun p => (hstep.suffix p).trans (h.rest p), ?_, fun b => hstep.gone_iff h.separate⟩
  intro i b hmem
  rcases h.permitted i b hmem with htodo | hfree
  · by_cases hb : b = action
    · exact .inr (hb ▸ hpermits)
    · exact .inl (hstep.mem_of_ne htodo hb)
  · exact .inr hfree

theorem returns (h : Invariant system ends s) (hplan : s.todo p = action :: rest)
    (hended : s.ended p = false) (hpermits : system.refuses action = false)
    (hready : s.ready system ends action = true) :
    Invariant system ends (s.perform p rest action) := by
  have hstep := step_some (.returns hplan hended hpermits hready)
  obtain ⟨hrest, hpermitted, hgone⟩ := h.todo_step hstep hpermits
  constructor
  · exact hrest
  · exact hpermitted
  · intro c
    rw [perform_present, h.present, hgone, or_assoc, eq_comm (a := action)]
  · intro c htype hdone
    rw [perform_initialized]
    rcases (hgone _).mp hdone with hbefore | rfl
    · exact .inl (h.initialized c htype hbefore)
    · exact .inr rfl
  · intro c hdone
    rw [perform_joined]
    rcases (hgone _).mp hdone with hbefore | rfl
    · exact (h.joined c hbefore).imp_left .inl
    · exact .inl (.inr rfl)
  · intro c hjoined
    rw [perform_present]
    rcases perform_joined.mp hjoined with hbefore | rfl
    · exact ⟨.inl (h.met c hbefore).1, (h.met c hbefore).2⟩
    · simp only [State.ready, Bool.and_eq_true] at hready
      exact ⟨.inl hready.1.1.2, hready.1.1.1⟩
  · intro c hasleep
    obtain ⟨hbefore, hother⟩ := perform_asleep.mp hasleep
    obtain ⟨hmeets, htype, hmem⟩ := h.asleep c hbefore
    exact ⟨hmeets, htype, hstep.mem_of_ne hmem (Ne.symm hother)⟩
  · intro i hi
    rw [perform_ended] at hi
    exact h.ended i hi

theorem strays (h : Invariant system ends s) (hplan : s.todo p = action :: rest)
    (hended : s.ended p = false) (hpermits : system.refuses action = false)
    (hstrays : ends.strays action = true) :
    Invariant system ends { s with todo := Function.update s.todo p rest } := by
  have hstep := step_some (.strays hplan hended hpermits hstrays)
  obtain ⟨hrest, hpermitted, hgone⟩ := h.todo_step hstep hpermits
  constructor
  · exact hrest
  · exact hpermitted
  · intro c
    rw [hgone, ← or_assoc, ← h.present]
    refine ⟨Or.inl, fun hc => hc.resolve_right ?_⟩
    rintro rfl
    cases hstrays
  · intro c htype hdone
    rcases (hgone _).mp hdone with hbefore | rfl
    · exact h.initialized c htype hbefore
    · cases hstrays
  · intro c hdone
    rcases (hgone _).mp hdone with hbefore | rfl
    · exact h.joined c hbefore
    · exact .inr (by simpa [Ends.strays] using hstrays)
  · exact h.met
  · intro c hasleep
    obtain ⟨hmeets, htype, hmem⟩ := h.asleep c hasleep
    refine ⟨hmeets, htype, hstep.mem_of_ne hmem ?_⟩
    rintro rfl
    simp [Ends.strays, hmeets] at hstrays
  · exact h.ended

theorem sleeps (h : Invariant system ends s) {c : Connection}
    (hplan : s.todo p = .connect c :: rest) (hmeets : ends.meets c = true)
    (htype : ends.serverType c = .kSharedMemory) :
    Invariant system ends { s with asleep := Function.update s.asleep c true } where
  rest := h.rest
  permitted := h.permitted
  present := h.present
  initialized := h.initialized
  joined := h.joined
  met := h.met
  asleep c' hasleep := by
    rcases update_true.mp hasleep with hbefore | rfl
    · exact h.asleep c' hbefore
    · have hmem : .connect c ∈ s.todo p := by
        rw [hplan]
        exact List.mem_cons_self
      have howner : client c = p := h.separate.owned hmem
      exact ⟨hmeets, htype, howner ▸ hmem⟩
  ended := h.ended

theorem throws (h : Invariant system ends s) (hplan : s.todo p = action :: rest)
    (hrefuses : system.refuses action = true) :
    Invariant system ends { s with ended := Function.update s.ended p true } where
  rest := h.rest
  permitted := h.permitted
  present := h.present
  initialized := h.initialized
  joined := h.joined
  met := h.met
  asleep := h.asleep
  ended i hi := by
    by_cases hp : i = p
    · subst hp
      have hmem : action ∈ s.todo i := by
        rw [hplan]
        exact List.mem_cons_self
      exact ⟨action, (h.rest i).subset hmem, hrefuses⟩
    · have hbefore : Function.update s.ended p true i = true := hi
      rw [Function.update_of_ne hp] at hbefore
      exact h.ended i hbefore

theorem step (h : Invariant system ends s) {e : Process × Option Action}
    (hs : Steps system ends s e t) : Invariant system ends t := by
  cases hs with
  | returns hplan hended hpermits hready => exact h.returns hplan hended hpermits hready
  | strays hplan hended hpermits hstrays => exact h.strays hplan hended hpermits hstrays
  | again => exact h
  | sleeps hplan _ _ hmeets htype => exact h.sleeps hplan hmeets htype
  | throws hplan _ hrefuses => exact h.throws hplan hrefuses

theorem of_run (h : Invariant system ends s) {es : List (Process × Option Action)}
    (hrun : Run (Steps system ends) s es t) : Invariant system ends t :=
  Run.invariant (I := Invariant system ends) h (fun _ _ _ hinv hstep => hinv.step hstep) hrun

/-- Where every client looks for its server and nobody is left asleep, an action that has what it
needs returns. -/
theorem ready (h : Invariant system ends s) (hmeets : ∀ c, ends.meets c = true)
    (hwakes : system.wakes = true ∨ ∀ c, s.asleep c = false)
    (hneeds : ∀ b, needs ends action b → s.todo.Gone b) :
    s.ready system ends action = true := by
  cases action with
  | connect c =>
    have hpresent : s.present c = true := by
      apply (h.present c).mpr
      cases hleft : ends.left c with
      | true => exact .inl rfl
      | false => exact .inr (hneeds (.constructServer c) ⟨rfl, hleft⟩)
    have hinitialized : ends.serverType c = .kSharedMemory → s.initialized c = true :=
      fun htype => h.initialized c htype (hneeds (.finishServer c) ⟨rfl, htype⟩)
    have hawake : (!s.asleep c || system.wakes) = true := by
      rcases hwakes with hwakes | hawake
      · rw [hwakes, Bool.or_true]
      · rw [hawake c]
        rfl
    simp only [State.ready, hmeets c, hpresent, hawake, Bool.and_true, Bool.true_and,
      Bool.or_eq_true, bne_iff_ne]
    by_cases htype : ends.serverType c = .kSharedMemory
    · exact .inr (hinitialized htype)
    · exact .inl htype
  | accept c =>
    refine (h.joined c (hneeds (.connect c) rfl)).resolve_right ?_
    rw [hmeets c]
    exact nofun
  | _ => rfl

theorem not_ended (h : Invariant system ends s) (hpermits : system.Permits ends.toArrangement)
    (p : Process) : s.ended p = false := by
  cases hended : s.ended p with
  | false => rfl
  | true =>
    obtain ⟨action, hmem, hrefuses⟩ := h.ended p hended
    rw [hpermits p action hmem] at hrefuses
    cases hrefuses

/-- The rest of the plans can be gone through. -/
theorem completes (h : Invariant system ends s) (hmeets : ∀ c, ends.meets c = true)
    (hpermits : system.Permits ends.toArrangement)
    (hwakes : system.wakes = true ∨ ∀ c, s.asleep c = false) : CanComplete system ends s := by
  obtain ⟨gs, plans, hgs, hfinished⟩ := h.ordered.completes rank_of_needs
  obtain ⟨t, hrun, hinv, htodo, _⟩ := Run.simulate
    (R := fun plans t => Invariant system ends t ∧ t.todo = plans ∧
      (system.wakes = true ∨ ∀ c, t.asleep c = false))
    (fun g : Process × Action => (g.1, some g.2))
    (by
      rintro _ ⟨p, action⟩ _ u ⟨rest, hplan, hneeds, rfl⟩ ⟨hinv, rfl, hwakes⟩
      have hmem : action ∈ u.todo p := by
        rw [hplan]
        exact List.mem_cons_self
      have hpermitted := hpermits p action ((hinv.rest p).subset hmem)
      have hready := hinv.ready hmeets hwakes hneeds
      have hended := hinv.not_ended hpermits p
      refine ⟨_, Steps.returns hplan hended hpermitted hready,
        hinv.returns hplan hended hpermitted hready, perform_todo, ?_⟩
      refine hwakes.imp_right fun hawake c => ?_
      cases hasleep : (u.perform p rest action).asleep c with
      | false => rfl
      | true =>
        have hbefore := (perform_asleep.mp hasleep).1
        rw [hawake c] at hbefore
        cases hbefore)
    hgs ⟨h, rfl, hwakes⟩
  subst htodo
  refine ⟨_, t, hrun, hfinished, fun c => ?_⟩
  have hgone : t.todo.Gone (.connect c) := by
    intro i hmem
    rw [hfinished i] at hmem
    cases hmem
  refine (hinv.joined c hgone).resolve_right ?_
  rw [hmeets c]
  exact nofun

/-- A start that comes to its end met no refusal, and left nobody asleep. -/
theorem of_completed (h : Invariant system ends s) {es : List (Process × Option Action)}
    (hrun : Run (Steps system ends) s es t) (hcompleted : t.Completed) :
    (∀ c, ends.meets c = true) ∧ system.Permits ends.toArrangement ∧
      (system.wakes = true ∨ ∀ c, s.asleep c = false) := by
  have hinv := h.of_run hrun
  have hnone : ∀ {p : Process} {action : Action}, action ∉ t.todo p := by
    intro p action
    rw [hcompleted.finished p]
    exact List.not_mem_nil
  refine ⟨fun c => (hinv.met c (hcompleted.joined c)).2, ?_, ?_⟩
  · intro p action hmem
    exact (hinv.permitted p action hmem).resolve_left hnone
  · cases hwakes : system.wakes with
    | true => exact .inl rfl
    | false =>
      refine .inr fun c => ?_
      cases hasleep : s.asleep c with
      | false => rfl
      | true =>
        have hstill : t.asleep c = true := Run.invariant (I := fun u => u.asleep c = true) hasleep
          (fun _ _ _ hbefore hstep => asleep_stays hwakes hstep hbefore) hrun
        exact absurd (hinv.asleep c hstill).2.2 hnone

/-- A process that has made its connections has found those that are called as it thinks. -/
theorem found (h : Invariant system ends s) {c : Connection} (hclient : s.todo (client c) = [])
    (hmeets : ends.meets c = true) : s.joined c = true ∧ s.present c = true := by
  have hgone : s.todo.Gone (.connect c) := h.separate.gone (by
    rw [show owner (.connect c) = client c from rfl, hclient]
    exact List.not_mem_nil)
  have hjoined : s.joined c = true := (h.joined c hgone).resolve_right (by
    rw [hmeets]
    exact nofun)
  exact ⟨hjoined, (h.met c hjoined).1⟩

end Invariant

theorem canComplete_iff {system : System} {ends : Ends} {fs : List (Process × Option Action)}
    {u : State} (hrun : Run (Steps system ends) (start ends) fs u) :
    CanComplete system ends u ↔ (∀ c, ends.meets c = true) ∧ system.Permits ends.toArrangement ∧
      (system.wakes = true ∨ ∀ c, u.asleep c = false) := by
  have hinv := (start_invariant system ends).of_run hrun
  constructor
  · rintro ⟨es, t, hes, hcompleted⟩
    exact hinv.of_completed hes hcompleted
  · rintro ⟨hmeets, hpermits, hwakes⟩
    exact hinv.completes hmeets hpermits hwakes

def sharedMemoryEnds : Ends where
  clientType _ := .kSharedMemory
  serverType _ := .kSharedMemory
  sized _ := false
  fifo _ := false
  meets _ := true

/-- Nothing throws, and a flag set by another process wakes nobody. -/
def quietSystem : System := ⟨fun _ => false, false⟩

end IpcChecker.Rendezvous
