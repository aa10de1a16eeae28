import Panoptikon.ContinuousScan.Actor

/-!
# The continuous scan supervisor

`ContinuousScanSupervisor` of `jobs/continuous_scan.rs` with the actors it starts
and stops. Each actor has a mailbox and runs on its own; one that was stopped may
still finish the message it is at. The supervisor handles one message at a time,
and while it waits for an actor to answer a pause it handles none.
-/

namespace Panoptikon.ContinuousScan

open Foundation

inductive Life where
  | running
  /-- Stopped, and perhaps still at a message. -/
  | stopping (finishing : Bool)
  | ended
deriving DecidableEq

structure Child where
  indexDb : String
  state : ScanState
  mailbox : List Message
  life : Life

def Child.Live (child : Child) : Prop := child.life ≠ .ended

instance (child : Child) : Decidable child.Live := inferInstanceAs (Decidable (_ ≠ _))

inductive Phase where
  | ready
  /-- Waiting for an actor to answer a pause. -/
  | pausing (indexDb : String) (child : Nat) (answered : Bool)
deriving DecidableEq

structure Supervision where
  actors : KeyedMap String Nat
  phase : Phase
  shuttingDown : Bool
  children : Nat → Option Child
  nextChild : Nat
  tables : String → FileScans
  /-- The jobs that hold a pause of a database, from its reply to its resume. -/
  brackets : String → Nat
  /-- The effects of the actors, with the pauses open at the time. -/
  log : List (String × Nat × Effect)

namespace Supervision

variable (system : Supervision)

def setChild (index : Nat) (child : Child) : Supervision :=
  { system with children := Function.update system.children index (some child) }

def setBrackets (indexDb : String) (count : Nat) : Supervision :=
  { system with brackets := Function.update system.brackets indexDb count }

/-- What an actor did to its table, and its effects. -/
def account (indexDb : String) (scan : Scan) : Supervision :=
  { system with
    tables := Function.update system.tables indexDb scan.table
    log := system.log ++ scan.effects.map fun effect =>
      (indexDb, system.brackets indexDb, effect) }

/-- A message to an actor that has ended is lost. -/
def cast (index : Nat) (message : Message) : Supervision :=
  match system.children index with
  | none => system
  | some child =>
      if child.Live then
        system.setChild index { child with mailbox := child.mailbox ++ [message] }
      else system

def stop (index : Nat) : Supervision :=
  match system.children index with
  | none => system
  | some child =>
      if child.life = .running then system.setChild index { child with life := .stopping true }
      else system

/-- An actor's name is taken until the last of that name has ended. -/
def NameTaken (indexDb : String) : Prop :=
  ∃ index < system.nextChild, ∃ child, system.children index = some child ∧ child.Live ∧
    child.indexDb = indexDb

instance (indexDb : String) : Decidable (system.NameTaken indexDb) :=
  have each : DecidablePred fun index => ∃ child, system.children index = some child ∧
      child.Live ∧ child.indexDb = indexDb := fun index =>
    match found : system.children index with
    | none => isFalse fun ⟨_, absent, _⟩ => by rw [found] at absent; cases absent
    | some child =>
        if holds : child.Live ∧ child.indexDb = indexDb then isTrue ⟨child, found, holds⟩
        else isFalse fun ⟨other, isOther, holds'⟩ => by
          rw [found] at isOther
          cases isOther
          exact holds holds'
  inferInstanceAs (Decidable (∃ index < system.nextChild, _))

/-- Starts an actor with the world its `pre_start` meets. -/
def spawn (indexDb : String) (world : World) (config : ScanConfig) : Option Supervision :=
  if system.NameTaken indexDb then none
  else
    match Scan.preStart world true (system.tables indexDb) with
    | none => none
    | some scan =>
        let child : Child := ⟨indexDb, scan.state, [.updateConfig config], .running⟩
        some { (system.account indexDb scan).setChild system.nextChild child with
          nextChild := system.nextChild + 1
          actors := system.actors.insert indexDb system.nextChild }

def stopActor (indexDb : String) : Supervision :=
  match system.actors.lookup indexDb with
  | none => system
  | some index => { system.stop index with actors := system.actors.erase indexDb }

/-- What a pass finds of one database. -/
structure Listing where
  indexDb : String
  config : Option ScanConfig
  hasIndex : Bool
  world : World

def syncSingleDb (listing : Listing) : Supervision :=
  match listing.config with
  | none => system
  | some config =>
      if listing.hasIndex = false then system.stopActor listing.indexDb
      else if config.enabled = false then system.stopActor listing.indexDb
      else
        match system.actors.lookup listing.indexDb with
        | some index => system.cast index (.updateConfig config)
        | none => (system.spawn listing.indexDb listing.world config).getD system

/-- The databases to scan, in the order in which a map of them is walked. -/
def desired (listings : List Listing) : List (Listing × ScanConfig) :=
  listings.filterMap fun listing =>
    match listing.config with
    | none => none
    | some config =>
        if listing.hasIndex && config.enabled then some (listing, config) else none

def stopUndesired (names : List String) : List String → Supervision → Supervision
  | [], system => system
  | existing :: rest, system =>
      stopUndesired names rest
        (if existing ∈ names then system else system.stopActor existing)

/-- A failed start ends the pass. -/
def startDesired : List (Listing × ScanConfig) → Supervision → Supervision
  | [], system => system
  | (listing, config) :: rest, system =>
      match system.actors.lookup listing.indexDb with
      | some index => startDesired rest (system.cast index (.updateConfig config))
      | none =>
          match system.spawn listing.indexDb listing.world config with
          | none => system
          | some system => startDesired rest system

/-- No listing where the directory cannot be read. -/
def resyncFromDisk (listings : Option (List Listing)) : Supervision :=
  match listings with
  | none => system
  | some listings =>
      let wanted := desired listings
      startDesired wanted
        (stopUndesired (wanted.map fun listed => listed.1.indexDb) system.actors.keys system)

/-- The reply to a pause: the job holds it from now on. -/
def replyPause (indexDb : String) : Supervision :=
  { system.setBrackets indexDb (system.brackets indexDb + 1) with phase := .ready }

def pauseForJob (indexDb : String) : Supervision :=
  if system.shuttingDown then system.replyPause indexDb
  else
    match system.actors.lookup indexDb with
    | none => system.replyPause indexDb
    | some index =>
        match system.children index with
        | none => system.replyPause indexDb
        | some child =>
            if child.Live then
              { system.cast index .pause with phase := .pausing indexDb index false }
            else system.replyPause indexDb

def resumeAfterJob (listing : Listing) : Supervision :=
  let system := system.setBrackets listing.indexDb (system.brackets listing.indexDb - 1)
  if system.shuttingDown then system
  else
    match system.actors.lookup listing.indexDb with
    | some index => system.cast index .resume
    | none => system.syncSingleDb listing

def stopAll : List Nat → Supervision → Supervision
  | [], system => system
  | index :: rest, system => stopAll rest (system.stop index)

def shutdown : Supervision :=
  { stopAll (system.actors.entries.map fun entry => entry.2) system with
    shuttingDown := true, actors := ∅ }

/-- Whether the wait for an actor is over: it has answered, or it is gone. -/
def Answered (index : Nat) (answered : Bool) : Prop :=
  answered = true ∨ ∀ child, system.children index = some child → ¬child.Live

instance (index : Nat) (answered : Bool) : Decidable (system.Answered index answered) :=
  match found : system.children index with
  | none => isTrue (Or.inr fun _ some_ => by rw [found] at some_; cases some_)
  | some child =>
      if holds : answered = true ∨ ¬child.Live then
        isTrue (holds.imp_right fun gone other isOther => by
          rw [found] at isOther
          cases isOther
          exact gone)
      else isFalse fun ended => holds (ended.imp_right fun gone => gone child found)

def pauseAnswered : Supervision :=
  match system.phase with
  | .ready => system
  | .pausing indexDb index answered =>
      if system.Answered index answered then system.replyPause indexDb else system

def Phase.answer (phase : Phase) (index : Nat) (message : Message) : Phase :=
  match phase, message with
  | .pausing indexDb child _, .pause =>
      if child = index then .pausing indexDb child true else phase
  | _, _ => phase

/-- An actor handles the first message of its mailbox. -/
def handleNext (index : Nat) (world : World) : Supervision :=
  match system.children index with
  | none => system
  | some child =>
      if child.life = .ended ∨ child.life = .stopping false then system
      else
        match child.mailbox with
        | [] => system
        | message :: rest =>
            let scan := (Scan.mk child.state (system.tables child.indexDb) []).handle world message
            let life : Life := if child.life = .running then .running else .stopping false
            { (system.account child.indexDb scan).setChild index
                { child with state := scan.state, mailbox := rest, life } with
              phase := Phase.answer system.phase index message }

/-- A stopped actor ends. -/
def terminate (index : Nat) (world : World) : Supervision :=
  match system.children index with
  | none => system
  | some child =>
      if child.life = .running ∨ child.life = .ended then system
      else
        let scan := (Scan.mk child.state (system.tables child.indexDb) []).postStop world
        (system.account child.indexDb scan).setChild index
          { child with state := scan.state, life := .ended }

/-- An actor fails. -/
def crash (index : Nat) : Supervision :=
  match system.children index with
  | none => system
  | some child => system.setChild index { child with life := .ended }

end Supervision

open Supervision in
inductive SupervisorOp where
  | configChanged (listing : Listing)
  | resyncFromDisk (listings : Option (List Listing))
  | pauseForJob (indexDb : String)
  | pauseAnswered
  | resumeAfterJob (listing : Listing)
  | shutdown
  /-- Events, timers and workers. -/
  | deliver (index : Nat) (message : Message) (plain : message.isControl = false)
  | handleNext (index : Nat) (world : World)
  | terminate (index : Nat) (world : World)
  | crash (index : Nat)

namespace Supervision

/-- The messages of the supervisor wait while it is busy; a resume answers an
open pause. -/
def step (system : Supervision) : SupervisorOp → Supervision
  | .configChanged listing =>
      if system.phase = .ready ∧ system.shuttingDown = false then system.syncSingleDb listing
      else system
  | .resyncFromDisk listings =>
      if system.phase = .ready ∧ system.shuttingDown = false then system.resyncFromDisk listings
      else system
  | .pauseForJob indexDb => if system.phase = .ready then system.pauseForJob indexDb else system
  | .pauseAnswered => system.pauseAnswered
  | .resumeAfterJob listing =>
      if system.phase = .ready ∧ 0 < system.brackets listing.indexDb then
        system.resumeAfterJob listing
      else system
  | .shutdown => if system.phase = .ready then system.shutdown else system
  | .deliver index message _ => system.cast index message
  | .handleNext index world => system.handleNext index world
  | .terminate index world => system.terminate index world
  | .crash index => system.crash index

end Supervision

end Panoptikon.ContinuousScan
