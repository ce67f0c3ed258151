import FabricFs.Lib.Runs
import FabricFs.Session.Settled

/-!
# Histories of the session store

A history is a list of calls, each with the verdicts of its disk primitives, and of crashes.

* `reads_settled`: if primitives fail only while files are staged, then whatever a call tells
  is what the last read told or what a mutation attempted since then gives, across crashes.
* `reads_unsettled`: a directory that cannot be opened after a rename is enough to break this.
* `delete_final`: if moreover no session is protected, then the store always loads, a
  deletion that returns is final, and one that is cut short leaves the session or nothing.
* `delete_unloadable`: a crash in the deletion of a protected session leaves a disk that
  cannot be loaded.
-/

namespace FabricFs.Session.Durability

open Lib Lib.Prog Lib.Runs Protocol List Option

/-! ## Runs -/

variable {env : DurabilityEnv} {s : StoreState} {K : Held → Prop}

inductive StoreCall where
  | load
  | create (contents : { contents : Contents // contents.Consistent })
  | update (mutation : Mutation) (password : Option Text)
  | delete (password : Option Text)
  | read (password : Option Text)
  | list

/-- A call with the verdicts of its primitives, or a crash between two calls. -/
inductive StoreEvent where
  | call (call : StoreCall) (staging commit : List Verdict)
  | crash (loss : Loss)

/-- The state in which a call begins. -/
def StoreState.scheduled (s : StoreState) (staging commit : List Verdict) : StoreState :=
  { s with staging := staging, commit := commit }

/-- Only `load` works while the process is down, and only then. -/
def runCall (env : DurabilityEnv) (call : StoreCall) (s : StoreState) : StoreState :=
  match s.memory, call with
  | .unloaded, .load => (load env s).2
  | .loaded _, .create contents => (insertNewSession contents.1 env s).2
  | .loaded _, .update mutation password => (updateSession mutation password env s).2
  | .loaded _, .delete password => (deleteSession password env s).2
  | .loaded _, .read password => (readSession password env s).2
  | .loaded _, .list => (listSessions env s).2
  | _, _ => s

def storeEvent (env : DurabilityEnv) (event : StoreEvent) (s : StoreState) : StoreState :=
  match event with
  | .call call staging commit => runCall env call (s.scheduled staging commit)
  | .crash loss => s.crash loss

/-- No session, and a process that is down. -/
def initialState : StoreState :=
  ⟨⟨⟨{}, []⟩, ⟨{}, []⟩, fun _ => ⟨{}, []⟩, 0⟩, .unloaded, [none], [none], [], [], []⟩

/-- No primitive fails once a file is staged. -/
def NoFailure (commit : List Verdict) : Prop := ∀ verdict ∈ commit, verdict.isFailure = false

def SafeEvent : StoreEvent → Prop
  | .call _ _ commit => NoFailure commit
  | .crash _ => True

/-- The calls that `K` allows. -/
def Allowed (K : Held → Prop) : StoreEvent → Prop
  | .call (.create contents) _ _ => ∀ held, K held → K (held ++ [some contents.1])
  | .call (.update _ _) _ _ => StableUnderUpdate K
  | _ => True

theorem spec_after {α : Type} {C P : StoreState → Prop} {x : StoreProg α}
    (h : Spec env C P x (fun _ => C) C) (hs : P s) : C (x env s).2 := by
  have hRun := h s hs
  revert hRun
  rcases x env s with ⟨(e | _) | a, s'⟩ <;> exact id

theorem inv_initial (hK : K [none]) : Inv K initialState := by
  have hOne : ∀ {α : Type} (a : α) (P : α → Prop), P a → (⟨a, []⟩ : Delayed α).All P :=
    fun a P hP b hb => mem_singleton.1 hb ▸ hP
  refine ⟨fun _ h => (not_mem_nil h).elim, List.Subset.refl _,
    fun _ h => (not_mem_nil h).elim, hK, ⟨?_, ?_⟩, .inl (hOne _ _ rfl),
    ⟨none, hOne _ _ rfl⟩, none, hOne _ _ rfl⟩
  · exact hOne _ _ ⟨fun _ => mem_singleton_self _, fun n hn => by cases hn⟩
  · exact hOne _ _ fun record hRecord => by cases hRecord

theorem Inv.scheduled (h : Inv K s) (staging : List Verdict) {commit : List Verdict}
    (hSafe : NoFailure commit) : Inv K (s.scheduled staging commit) :=
  ⟨hSafe, h.sub, h.answers, h.kind, h.memory⟩

theorem MemOk.good {held : Held} {disk : SessionDisk} {memory : Memory}
    (h : MemOk held disk memory) : Good held disk := by
  cases memory with
  | unloaded => exact h.1
  | loaded session =>
    cases session with
    | none =>
      obtain ⟨hNone, hLive, _, hRecord⟩ := h
      exact good_gone ⟨hLive, hRecord⟩ hNone fun r hr => .inl hr
    | some session =>
      obtain ⟨c, durability⟩ := session
      cases durability with
      | clean =>
        obtain ⟨hHeld, hConsistent, n, hPhase⟩ := h
        exact hPhase.good_eq ⟨hHeld, hConsistent⟩ fun r hr => by cases hr
      | pendingSync kind =>
        cases kind with
        | sessionDir =>
          obtain ⟨hHeld, hConsistent, n, live, hLive, hLiveOk, hPassword, hPhase⟩ := h
          refine hPhase.good_eq ⟨hLive, hLiveOk⟩ ?_
          rintro r (hr | hr)
          · cases hr
          · obtain rfl := some.inj hr
            exact phaseRecord_sessionDir ⟨hHeld, hConsistent⟩ hPassword.symm
        | sessionsRoot =>
          obtain ⟨hHeld, hNone, hConsistent, hLive, _, hDeleting, hRecord⟩ := h
          refine good_open (V := fun r => r = none ∨ r = some ⟨c, .pendingSync .sessionsRoot⟩)
            ⟨⟨hLive, hDeleting⟩, hRecord⟩ hNone ?_
          rintro r (hr | hr)
          · cases hr
          · obtain rfl := some.inj hr
            exact ⟨rfl, hHeld, hConsistent⟩
      | pendingDelete stage =>
        obtain ⟨_, hNone, hLive, hRecord⟩ := h
        exact good_gone ⟨liveOk_of_none hLive hNone, hRecord⟩ hNone fun _ h => h

theorem inv_event (hK : Stable K) {event : StoreEvent} (h : Inv K s)
    (hEvent : SafeEvent event ∧ Allowed K event) :
    Inv K (storeEvent env event s) := by
  cases event with
  | crash loss =>
    exact ⟨fun _ h => (not_mem_nil h).elim, h.sub, h.answers, h.kind,
      memOk_crash h.memory.good loss⟩
  | call call staging commit =>
    have hInv := h.scheduled staging hEvent.1
    simp only [storeEvent, runCall]
    split
    · rename_i hMemory
      refine spec_after (spec_conseq (spec_load hK) (fun _ h => h) (fun _ _ h => h.1)
        (fun _ h => h.1)) ⟨hInv, hMemory⟩
    · rename_i session contents hMemory
      exact spec_after (spec_insertNewSession contents.2 hEvent.2 session) ⟨hInv, hMemory⟩
    · exact spec_after (spec_updateSession hEvent.2 _ _) hInv
    · exact spec_after (spec_conseq (spec_deleteSession hK _) (fun _ h => h) (fun _ _ h => h.1)
        (fun _ h => h)) hInv
    · exact spec_after (spec_readSession hK _) hInv
    · rename_i session hMemory
      exact spec_after (spec_listSessions hK session) ⟨hInv, hMemory⟩
    · exact hInv

theorem inv_run (hK : Stable K) {events : List StoreEvent} (h : Inv K s)
    (hEvents : ∀ event ∈ events, SafeEvent event ∧ Allowed K event) :
    Inv K (run (storeEvent env) events s) :=
  run_invariant (fun _ _ h hEvent => inv_event hK h hEvent) h (along_of_forall hEvents)

theorem told_held {held : Held} {disk : SessionDisk} {memory : Memory}
    (h : MemOk held disk memory) {contents : Option Contents}
    (hTold : memory.told = some contents) : contents ∈ held := by
  rcases memory with _ | (_ | ⟨c, _ | kind | stage⟩)
  · cases hTold
  · obtain rfl := some.inj hTold
    exact h.1
  · obtain rfl := some.inj hTold
    exact h.1
  · obtain rfl := some.inj hTold
    cases kind <;> exact h.1
  · obtain rfl := some.inj hTold
    exact h.2.1

/-- Reads tell settled states only: what a call tells after any crashes is what the last read
told, or a state that a mutation attempted since then would give. -/
theorem reads_settled (env : DurabilityEnv) (events : List StoreEvent)
    (hSafe : ∀ event ∈ events, SafeEvent event) :
    let s := run (storeEvent env) events initialState
    (∀ answer ∈ s.answers, answer.1 ∈ answer.2) ∧
      ∀ contents, s.memory.told = some contents → contents ∈ s.possible := by
  intro s
  have hAllowed : ∀ event : StoreEvent, Allowed (fun _ => True) event := by
    rintro (⟨_ | _ | _ | _ | _ | _, _, _⟩ | _) <;> simp [Allowed, StableUnderUpdate]
  have hInv : Inv (fun _ => True) s :=
    inv_run ⟨fun _ _ _ _ => trivial, fun _ _ => trivial⟩ (inv_initial trivial)
      fun event hEvent => ⟨hSafe event hEvent, hAllowed event⟩
  exact ⟨fun answer hAnswer => (hInv.answers answer hAnswer).1,
    fun contents hTold => hInv.sub (told_held hInv.memory hTold)⟩

section Samples

def sampleStoreEnv : DurabilityEnv where
  host := ⟨text "/cow", some⟩
  argon2 password _ := some password
  cowRootText := text "/cow"
  sessionId := text "s"
  passwordFirst := true

def sampleContents (password : PasswordRecord) (overlayVersion : Int64) : Contents :=
  ⟨⟨some ⟨text "s", [], [], text "/cow", some (passwordStatus password), 1, 1, 1⟩, [],
    overlayVersion⟩, password⟩

def sampleNew : { contents : Contents // contents.Consistent } :=
  ⟨sampleContents unprotectedRecord 1, rfl, fun _ => rfl⟩

/-- Every mutation raises the version. -/
def sampleMutation : Mutation where
  apply overlay := .ok { overlay with overlayVersion := 2 }
  keeps := by
    intro overlay next hNext
    obtain rfl := Except.ok.inj hNext
    rfl

/-- Nothing that was not synced is lost. -/
def loseNothing : Loss := ⟨9, 9, fun _ => 9⟩

/-- A session is created, and changed with these verdicts after the staging. -/
def sampleEvents (commit : List Verdict) : List StoreEvent :=
  [.call .load [] [], .call (.create sampleNew) [] [],
   .call (.update sampleMutation none) [] commit, .call (.read none) [] [],
   .crash loseNothing, .call .load [] [], .call (.read none) [] []]

theorem reads_settled_after_change :
    let s := run (storeEvent sampleStoreEnv) (sampleEvents []) initialState
    s.answers.map (·.1) = [some (sampleContents unprotectedRecord 2),
      some (sampleContents unprotectedRecord 2)] ∧ ∀ answer ∈ s.answers, answer.1 ∈ answer.2 :=
  ⟨by decide +kernel, (reads_settled sampleStoreEnv (sampleEvents [])
    (by simp [sampleEvents, SafeEvent, NoFailure])).1⟩

/-- The file of the change is renamed, and then the directory cannot be opened to be synced. The
change is taken for one that never happened: the read tells version 1, and after a restart
another read tells version 2. -/
theorem reads_unsettled :
    let s := run (storeEvent sampleStoreEnv)
      (sampleEvents [.works, .works, .works, .works, .fails]) initialState
    s.answers = [(some (sampleContents unprotectedRecord 2),
        [some (sampleContents unprotectedRecord 1)]),
      (some (sampleContents unprotectedRecord 1), [none,
        some (sampleContents unprotectedRecord 1), some (sampleContents unprotectedRecord 2)])] ∧
      ∃ answer ∈ s.answers, answer.1 ∉ answer.2 := by
  decide +kernel

end Samples

/-! ## Deletion -/

variable {K : Held → Prop} {s : StoreState} {W : Option Contents → Prop} {env : DurabilityEnv}

/-- The records begin anew with a known state. -/
def StoreState.restart (contents : Option Contents) (s : StoreState) : StoreState :=
  { s with possible := [contents], held := [contents], answers := [] }

def StoreEvent.creates : StoreEvent → Bool
  | .call (.create _) _ _ => true
  | _ => false

def StoreEvent.updates : StoreEvent → Bool
  | .call (.update _ _) _ _ => true
  | _ => false

/-- New sessions have no password. -/
def Unprotected : StoreEvent → Prop
  | .call (.create contents) _ _ => contents.1.password.isProtected = false
  | _ => True

/-- Until a session is created, no access tells of one, in any restart. -/
def GoneForGood (env : DurabilityEnv) (s : StoreState) : Prop :=
  ∀ later, (∀ event ∈ later, SafeEvent event ∧ event.creates = false) →
    ∀ answer ∈ (run (storeEvent env) later (s.restart none)).answers, answer.1 = none

/-- Until a session is created or changed, every access tells this state or none. -/
def Stays (env : DurabilityEnv) (contents : Contents) (s : StoreState) : Prop :=
  ∀ later, (∀ event ∈ later, SafeEvent event ∧ event.creates = false ∧ event.updates = false) →
    ∀ answer ∈ (run (storeEvent env) later (s.restart (some contents))).answers,
      answer.1 = some contents ∨ answer.1 = none

theorem Inv.restart {L : Held → Prop} (h : Inv K s) {contents : Option Contents} (hL : L [contents])
    (hMemory : MemOk [contents] s.disk s.memory) :
    Inv L (s.restart contents) :=
  ⟨h.safe, List.Subset.refl _, fun _ h => (not_mem_nil h).elim, hL, hMemory⟩

/-- The histories whose states are all of one kind. -/
def Every (W : Option Contents → Prop) (held : Held) : Prop := ∀ x ∈ held, W x

theorem every_singleton {x : Option Contents} (h : W x) :
    Every W [x] := fun _ hy => mem_singleton.1 hy ▸ h

theorem every_append {held : Held} {x : Option Contents} (h : Every W held) (hx : W x) :
    Every W (held ++ [x]) := by
  intro y hy
  rcases mem_append.1 hy with hy | hy
  · exact h y hy
  · exact every_singleton hx y hy

theorem stable_every (hNone : W none) : Stable (Every W) :=
  ⟨fun _ _ h hSub x hx => h x (hSub hx), fun _ h => every_append h hNone⟩

/-- In a run of allowed events from a state of the kind, every answer is of the kind. -/
theorem answers_every (hNone : W none) {events : List StoreEvent} (h : Inv (Every W) s)
    (hEvents : ∀ event ∈ events, SafeEvent event ∧ Allowed (Every W) event) :
    ∀ answer ∈ (run (storeEvent env) events s).answers, W answer.1 := by
  intro answer hAnswer
  obtain ⟨_, held, hEvery, hMem⟩ := (inv_run (stable_every hNone) h hEvents).answers answer hAnswer
  exact hEvery _ hMem

/-- A store that fits a disk without the session never tells of it again. -/
theorem gone_of_memOk (h : Inv K s) (hMemory : MemOk [none] s.disk s.memory) :
    GoneForGood env s := by
  intro later hLater
  have hUpdate : StableUnderUpdate (Every (· = none)) :=
    fun held c next hEvery hMem => by cases hEvery _ hMem
  have hStart : Inv (Every (· = none)) (s.restart none) :=
    h.restart (every_singleton rfl) hMemory
  refine answers_every (W := (· = none)) rfl hStart fun event hEvent => ?_
  obtain ⟨hSafe, hCreates⟩ := hLater event hEvent
  refine ⟨hSafe, ?_⟩
  rcases event with ⟨_ | _ | _ | _ | _ | _, _, _⟩ | _ <;>
    first
    | exact trivial
    | exact hUpdate
    | exact Bool.noConfusion (show true = false from hCreates)

theorem gone_of_held (h : Inv K s) (hHeld : s.held = [none]) : GoneForGood env s :=
  gone_of_memOk h (hHeld ▸ h.memory)

/-- A deletion that waits has no live directory on any disk that a crash may leave. -/
theorem gone_of_pendingDelete (h : Inv K s) {contents : Contents} {stage : PendingDeleteStage}
    (hMemory : s.memory = .loaded (some ⟨contents, .pendingDelete stage⟩)) :
    GoneForGood env s := by
  have hMemOk := h.memory
  rw [hMemory] at hMemOk
  refine gone_of_memOk h ?_
  rw [hMemory]
  exact ⟨hMemOk.1, mem_singleton_self _, hMemOk.2.2⟩

theorem stays_of_clean (h : Inv K s) {contents : Contents}
    (hMemory : s.memory = .loaded (some ⟨contents, .clean⟩)) :
    Stays env contents s := by
  intro later hLater
  have hMemOk := h.memory
  rw [hMemory] at hMemOk
  have hStart : Inv (Every fun x => x = some contents ∨ x = none) (s.restart (some contents)) := by
    refine h.restart (every_singleton (.inl rfl)) ?_
    rw [hMemory]
    exact ⟨mem_singleton_self _, hMemOk.2⟩
  refine answers_every (.inr rfl) hStart fun event hEvent => ?_
  obtain ⟨hSafe, hCreates, hUpdates⟩ := hLater event hEvent
  refine ⟨hSafe, ?_⟩
  rcases event with ⟨_ | _ | _ | _ | _ | _, _, _⟩ | _ <;>
    first
    | exact trivial
    | exact Bool.noConfusion (show true = false from hCreates)
    | exact Bool.noConfusion (show true = false from hUpdates)

/-- No session, or one without a password. -/
def IsUnprotected (x : Option Contents) : Prop :=
  ∀ contents, x = some contents → contents.password.isProtected = false

theorem inv_unprotected (env : DurabilityEnv) {events : List StoreEvent}
    (hEvents : ∀ event ∈ events, SafeEvent event ∧ Unprotected event) :
    Inv (Every IsUnprotected) (run (storeEvent env) events initialState) := by
  have hNone : IsUnprotected none := fun _ h => by cases h
  have hAdd : ∀ held (next : Contents), Every IsUnprotected held →
      next.password.isProtected = false → Every IsUnprotected (held ++ [some next]) :=
    fun held next hEvery hNext => every_append hEvery fun _ h => some.inj h ▸ hNext
  have hUpdate : StableUnderUpdate (Every IsUnprotected) :=
    fun held c next hEvery hMem hPassword =>
      hAdd held next hEvery (hPassword ▸ hEvery _ hMem c rfl)
  refine inv_run (stable_every hNone) (inv_initial (every_singleton hNone)) fun event hEvent => ?_
  obtain ⟨hSafe, hUnprotected⟩ := hEvents event hEvent
  refine ⟨hSafe, ?_⟩
  rcases event with ⟨_ | contents | _ | _ | _ | _, _, _⟩ | _ <;>
    first
    | exact trivial
    | exact hUpdate
    | exact fun held hEvery => hAdd held _ hEvery hUnprotected

/-- Loading works, a deletion is final once it returns or waits with the session moved away,
and one that is cut short leaves the session as it was or none. -/
theorem delete_final (env : DurabilityEnv) (events : List StoreEvent)
    (hEvents : ∀ event ∈ events, SafeEvent event ∧ Unprotected event) :
    let s := run (storeEvent env) events initialState
    (s.memory = .unloaded → ∀ staging commit, NoFailure commit →
      match load env (s.scheduled staging commit) with
      | (.error (.fail _), _) => False
      | (.error .crash, _) => True
      | (.ok _, after) =>
        GoneForGood env after ∨ ∃ contents, after.memory.told = some (some contents)) ∧
    (∀ password staging commit, NoFailure commit →
      (deleteSession password env (s.scheduled staging commit)).1 = .ok () →
      GoneForGood env (deleteSession password env (s.scheduled staging commit)).2) ∧
    (∀ contents stage, s.memory = .loaded (some ⟨contents, .pendingDelete stage⟩) →
      GoneForGood env s) ∧
    ∀ contents, s.memory = .loaded (some ⟨contents, .clean⟩) → Stays env contents s := by
  intro s
  have hInv : Inv (Every IsUnprotected) s := inv_unprotected env hEvents
  have hStable : Stable (Every IsUnprotected) := stable_every fun _ h => by cases h
  refine ⟨fun hMemory staging commit hSafe => ?_, fun password staging commit hSafe hOk => ?_,
    fun contents stage hMemory => gone_of_pendingDelete hInv hMemory,
    fun contents hMemory => stays_of_clean hInv hMemory⟩
  · have hLoad := (spec_load hStable : Spec env _ _ _ _ _) _ ⟨hInv.scheduled staging hSafe, hMemory⟩
    revert hLoad
    rcases load env (s.scheduled staging commit) with ⟨(e | _) | _, after⟩ <;> intro hLoad
    · obtain ⟨c, hMem, hProtected⟩ := hLoad.2
      rw [hLoad.1.kind _ hMem c rfl] at hProtected
      cases hProtected
    · exact trivial
    · exact hLoad.2.imp_left (gone_of_held hLoad.1)
  · have hDelete := (spec_deleteSession hStable password : Spec env _ _ _ _ _) _
      (hInv.scheduled staging hSafe)
    revert hDelete hOk
    rcases deleteSession password env (s.scheduled staging commit) with ⟨(e | _) | _, after⟩ <;>
      intro hOk hDelete
    · cases hOk
    · cases hOk
    · exact gone_of_held hDelete.1 hDelete.2

/-- The sessions directory keeps its entries as they were, the others lose nothing. -/
def loseRoot : Loss := ⟨0, 9, fun _ => 9⟩

/-- A session is created, and its deletion meets these verdicts. -/
def deletionEvents (contents : { contents : Contents // contents.Consistent })
    (password : Option Text) (commit : List Verdict) : List StoreEvent :=
  [.call .load [] [], .call (.create contents) [] [], .call (.delete password) [] commit]

/-- The machine crashes while the quarantine is emptied, and the move to it is lost. -/
def crashInQuarantine : List Verdict :=
  [.works, .works, .works, .works, .works, .crashes loseRoot]

theorem delete_final_after_crash :
    let s := run (storeEvent sampleStoreEnv) (deletionEvents sampleNew none crashInQuarantine)
      initialState
    s.memory.told = none ∧
      ¬ ∃ e, (load sampleStoreEnv (s.scheduled [] [])).1 = .error (.fail e) := by
  intro s
  have hFinal := delete_final sampleStoreEnv (deletionEvents sampleNew none crashInQuarantine)
    (by
      simp only [deletionEvents, forall_mem_cons, not_mem_nil, false_implies,
        implies_true, and_true]
      refine ⟨⟨?_, trivial⟩, ⟨?_, rfl⟩, ?_, trivial⟩ <;>
        simp [SafeEvent, NoFailure, crashInQuarantine, Verdict.isFailure])
  have hTold : s.memory.told = none := by decide +kernel
  have hUnloaded : s.memory = .unloaded := by
    revert hTold
    rcases s.memory with _ | (_ | ⟨c, _ | kind | stage⟩) <;> intro hTold <;>
      first | rfl | cases hTold
  refine ⟨hTold, fun ⟨e, hFails⟩ => ?_⟩
  have hLoad := hFinal.1 hUnloaded [] [] (by simp [NoFailure])
  revert hLoad hFails
  rcases load sampleStoreEnv (s.scheduled [] []) with ⟨(e | _) | _, after⟩ <;> intro hFails hLoad
  · exact hLoad
  · cases hFails
  · cases hFails

def sampleProtected : { contents : Contents // contents.Consistent } :=
  ⟨sampleContents ⟨true, currentAlgorithm, [1, 2, 3, 4, 5, 6, 7, 8], text "secret"⟩ 1, rfl,
    fun h => by cases h⟩

/-- The password file of a protected session is removed first, and a crash undoes the move to
the quarantine alone: the session is there without its password, and no store that has it on
its disk can be loaded. -/
theorem delete_unloadable :
    let s := run (storeEvent sampleStoreEnv)
      (deletionEvents sampleProtected (some (text "secret")) crashInQuarantine) initialState
    s.memory.told = none ∧
      (load sampleStoreEnv (s.scheduled [] [])).1 = .error (.fail (.invalidRequest
        (text "password record missing for protected session s"))) := by
  decide +kernel

end FabricFs.Session.Durability
