import Panoptikon.ContinuousScan.Discipline
import Panoptikon.ContinuousScan.Supervisor

/-!
# Exclusion of jobs and continuous scans

While a job holds the pause of a database no actor of it is at work. An actor
counts the pauses it is told of; the open pauses and the resumes on their way to
it never exceed that count, if every actor alive is told of every pause.
-/

namespace Panoptikon.ContinuousScan

open Foundation

namespace Scan

variable {world : World} {scan : Scan}

/-- A held actor is paused, and a paused one has no row. -/
structure HeldBack (state : ScanState) : Prop where
  held : 0 < state.jobPauses → state.paused = true
  rowless : state.paused = true → state.scanId = none

theorem close_scan_state (world : World) (scan : Scan) : (scan.closeScan world).state.scanId = none ∧
    (scan.closeScan world).state.paused = scan.state.paused ∧
    (scan.closeScan world).state.jobPauses = scan.state.jobPauses := by
  unfold closeScan
  split
  · rename_i none_
    exact ⟨none_, rfl, rfl⟩
  · exact ⟨rfl, rfl, rfl⟩

theorem close_scan_silent (rowless : scan.state.scanId = none) : (scan.closeScan world).effects = scan.effects := by
  unfold closeScan
  rw [rowless]

theorem closed_held_back (world : World) {before : Scan} (paused : before.state.paused = true) :
    HeldBack (before.closeScan world).state := by
  obtain ⟨none_, same, -⟩ := close_scan_state world before
  exact ⟨fun _ => same.trans paused, fun _ => none_⟩

theorem started_unpaused (world : World) {before : Scan} (unpaused : before.state.paused = false)
    (free : before.state.jobPauses = 0) : HeldBack ((before.startScan world).startWatching world).state := by
  have steady := start_watching_steady world (before.startScan world)
  have stays : ((before.startScan world).startWatching world).state.paused = false :=
    steady.paused.trans unpaused
  have none_ : ((before.startScan world).startWatching world).state.jobPauses = 0 :=
    steady.jobPauses.trans free
  exact ⟨fun some_ => absurd some_ (by omega), fun paused => absurd (paused.symm.trans stays)
    (by decide)⟩

/-- How the messages move the count. -/
def countAfter (jobPauses : Nat) : Message → Nat
  | .pause => jobPauses + 1
  | .resume => jobPauses - 1
  | _ => jobPauses

section

variable (back : HeldBack scan.state)

include back

theorem resume_held_back (counted : 0 < scan.state.jobPauses) : HeldBack (scan.handleResume world).state ∧
      (scan.handleResume world).state.jobPauses = scan.state.jobPauses - 1 := by
  have paused := back.held counted
  have rowless := back.rowless paused
  unfold handleResume
  dsimp only
  split
  · exact ⟨⟨fun _ => paused, fun _ => rowless⟩, rfl⟩
  · rename_i last
    have free : scan.state.jobPauses - 1 = 0 := by
      change ¬0 < scan.state.jobPauses - 1 at last
      omega
    split
    · exact ⟨⟨fun _ => paused, fun _ => rowless⟩, rfl⟩
    · split
      · split
        · exact ⟨closed_held_back world rfl, (close_scan_state world _).2.2⟩
        · exact ⟨⟨fun _ => rfl, fun _ => rowless⟩, rfl⟩
      · exact ⟨started_unpaused world rfl free, (start_watching_steady world _).jobPauses⟩

theorem update_config_held_back (config : ScanConfig) : HeldBack (scan.handleUpdateConfig world config).state ∧
      (scan.handleUpdateConfig world config).state.jobPauses = scan.state.jobPauses := by
  unfold handleUpdateConfig
  dsimp only
  split
  · split
    · exact ⟨closed_held_back world rfl, (close_scan_state world _).2.2⟩
    · rename_i inactive
      rw [not_or, not_or] at inactive
      exact ⟨⟨fun _ => rfl, fun _ => Option.not_isSome_iff_eq_none.mp inactive.2.2⟩, rfl⟩
  · split
    · rename_i free
      have isFree : scan.state.jobPauses = 0 := free
      split
      · split
        · have steady := fun before : Scan => start_watching_steady world before
          refine ⟨⟨fun some_ => ?_, fun paused => ?_⟩, (steady _).jobPauses⟩
          · rw [(steady _).jobPauses] at some_
            exact absurd (show 0 < scan.state.jobPauses from some_) (by omega)
          · rw [(steady _).paused] at paused
            cases paused
        · exact ⟨started_unpaused world rfl isFree, (start_watching_steady world _).jobPauses⟩
      · exact ⟨⟨back.held, back.rowless⟩, rfl⟩
    · exact ⟨⟨back.held, back.rowless⟩, rfl⟩

theorem handle_held_back {message : Message} (word : message = .pause → scan.state.jobPauses + 1 < 2 ^ 32)
    (counted : message = .resume → 0 < scan.state.jobPauses) : HeldBack (scan.handle world message).state ∧
      (scan.handle world message).state.jobPauses = countAfter scan.state.jobPauses message := by
  have plain : message.isControl = false → HeldBack (scan.handle world message).state ∧
      (scan.handle world message).state.jobPauses = scan.state.jobPauses := by
    intro isPlain
    have steady := handle_steady world scan isPlain
    refine ⟨⟨fun some_ => ?_, fun paused => ?_⟩, steady.jobPauses⟩
    · rw [steady.jobPauses] at some_
      rw [steady.paused]
      exact back.held some_
    · rw [steady.paused] at paused
      rw [steady.scanId]
      exact back.rowless paused
  cases message with
  | pause =>
    refine ⟨closed_held_back world rfl, (close_scan_state world _).2.2.trans ?_⟩
    exact Nat.mod_eq_of_lt (word rfl)
  | resume => exact resume_held_back back (counted rfl)
  | updateConfig config => exact update_config_held_back back config
  | fsEvent | pollTick | pollCompleted | settleCheck | dispatchStable | workerResult | getStatus =>
    exact plain rfl

theorem handle_silent (held : 0 < scan.state.jobPauses)
    {message : Message} (stays : message = .resume → 1 < scan.state.jobPauses) :
    (scan.handle world message).effects = scan.effects := by
  have paused := back.held held
  have rowless := back.rowless paused
  have plain : message.isControl = false → (scan.handle world message).effects = scan.effects :=
    fun isPlain => (handle_paused paused isPlain).2.1
  cases message with
  | pause => exact close_scan_silent rowless
  | resume =>
    have more : 0 < scan.state.jobPauses - 1 := by
      have many := stays rfl
      omega
    have unchanged : scan.handleResume world =
        scan.modify fun state => { state with jobPauses := state.jobPauses - 1 } := if_pos more
    change (scan.handleResume world).effects = _
    rw [unchanged]
    rfl
  | updateConfig config =>
    change (scan.handleUpdateConfig world config).effects = _
    unfold handleUpdateConfig
    dsimp only
    split
    · split
      · exact close_scan_silent rowless
      · rfl
    · split
      · rename_i free
        have isFree : scan.state.jobPauses = 0 := free
        omega
      · rfl
  | fsEvent | pollTick | pollCompleted | settleCheck | dispatchStable | workerResult | getStatus =>
    exact plain rfl

end

theorem pre_start_held_back {enableWatcher : Bool} {table : FileScans} {started : Scan}
    (starts : Scan.preStart world enableWatcher table = some started) :
    HeldBack started.state ∧ started.state.jobPauses = 0 := by
  have stale : ∀ before : Scan, (before.closeStaleScan world).state = before.state := by
    intro before
    unfold closeStaleScan
    split
    · split <;> rfl
    · rfl
  unfold Scan.preStart at starts
  split at starts
  · cases starts
  · split at starts
    · dsimp only at starts
      split at starts
      · cases starts
        refine ⟨started_unpaused world ?_ ?_, (start_watching_steady world _).jobPauses.trans ?_⟩
        · rw [stale]
        · rw [stale]
        · change (closeStaleScan world _).state.jobPauses = 0
          rw [stale]
      · cases starts
        refine ⟨⟨fun _ => rfl, fun _ => ?_⟩, ?_⟩
        · change (closeStaleScan world _).state.scanId = none
          rw [stale]
        · change (closeStaleScan world _).state.jobPauses = 0
          rw [stale]
    · cases starts

end Scan

def resumesIn (mailbox : List Message) : Nat :=
  mailbox.countP fun message => match message with
    | .resume => true
    | _ => false

/-- The pause an actor has answered, before the supervisor passes the answer on. -/
def answeredBy : Phase → Nat → Nat
  | .pausing _ child true, index => if child = index then 1 else 0
  | _, _ => 0

namespace Supervision

/-- What is owed to an actor does not exceed the pauses it counts. -/
structure Held (system : Supervision) (index : Nat) (child : Child) : Prop where
  counted : system.brackets child.indexDb + resumesIn child.mailbox +
    answeredBy system.phase index ≤ child.state.jobPauses
  back : Scan.HeldBack child.state

structure Exclusive (system : Supervision) : Prop where
  each : ∀ index child, system.children index = some child → child.Live → system.Held index child
  numbered : ∀ index child, system.children index = some child → index < system.nextChild
  registered : ∀ indexDb index, system.actors.lookup indexDb = some index →
    ∃ child, system.children index = some child ∧ child.indexDb = indexDb
  /-- The actor that is waited for is the only one alive. -/
  waiting : ∀ indexDb index answered, system.phase = .pausing indexDb index answered →
    ∀ other child, system.children other = some child → child.Live → child.indexDb = indexDb →
      other = index
  /-- No effect came while a pause was open. -/
  silent : ∀ entry ∈ system.log, entry.2.1 = 0

section

variable {system : Supervision} {index : Nat} {child : Child}

variable {phase : Phase}

theorem Exclusive.set_child_phase (exclusive : system.Exclusive) {old : Child}
    (found : system.children index = some old) (sameDb : child.indexDb = old.indexDb)
    (alive : child.Live → old.Live)
    (counted : child.Live → system.brackets child.indexDb + resumesIn child.mailbox +
      answeredBy phase index ≤ child.state.jobPauses)
    (back : child.Live → Scan.HeldBack child.state)
    (others : ∀ other, other ≠ index → answeredBy phase other = answeredBy system.phase other)
    (waits : ∀ indexDb waited answered, phase = .pausing indexDb waited answered →
      ∃ before, system.phase = .pausing indexDb waited before) :
    { system.setChild index child with phase }.Exclusive where
  each := by
    intro other otherChild isOther live
    change Function.update _ _ _ _ = _ at isOther
    by_cases same : other = index
    · subst same
      rw [Function.update_self] at isOther
      cases isOther
      exact ⟨counted live, back live⟩
    · rw [Function.update_of_ne same] at isOther
      have kept := exclusive.each other otherChild isOther live
      refine ⟨?_, kept.back⟩
      change _ + _ + answeredBy phase other ≤ _
      rw [others other same]
      exact kept.counted
  numbered := by
    intro other otherChild isOther
    change Function.update _ _ _ _ = _ at isOther
    by_cases same : other = index
    · subst same
      exact exclusive.numbered other old found
    · rw [Function.update_of_ne same] at isOther
      exact exclusive.numbered other otherChild isOther
  registered := by
    intro indexDb other isRegistered
    obtain ⟨otherChild, isOther, isDb⟩ := exclusive.registered indexDb other isRegistered
    change ∃ child', Function.update _ _ _ _ = _ ∧ _
    by_cases same : other = index
    · subst same
      rw [found] at isOther
      cases isOther
      exact ⟨child, Function.update_self _ _ _, sameDb.trans isDb⟩
    · exact ⟨otherChild, by rw [Function.update_of_ne same, isOther], isDb⟩
  waiting := by
    intro indexDb waited answered isPausing other otherChild isOther live isDb
    obtain ⟨before, wasPausing⟩ := waits indexDb waited answered isPausing
    change Function.update _ _ _ _ = _ at isOther
    by_cases same : other = index
    · subst same
      rw [Function.update_self] at isOther
      cases isOther
      exact exclusive.waiting indexDb waited before wasPausing other old found (alive live)
        (sameDb.symm.trans isDb)
    · rw [Function.update_of_ne same] at isOther
      exact exclusive.waiting indexDb waited before wasPausing other otherChild isOther live isDb
  silent := exclusive.silent

theorem Exclusive.set_child (exclusive : system.Exclusive) {old : Child}
    (found : system.children index = some old) (sameDb : child.indexDb = old.indexDb)
    (alive : child.Live → old.Live) (held : child.Live → system.Held index child) :
    (system.setChild index child).Exclusive :=
  exclusive.set_child_phase found sameDb alive (fun live => (held live).counted)
    (fun live => (held live).back) (fun _ _ => rfl) fun _ _ answered isPausing =>
    ⟨answered, isPausing⟩

theorem Exclusive.account (exclusive : system.Exclusive) (indexDb : String) (scan : Scan)
    (quiet : 0 < system.brackets indexDb → scan.effects = []) : (system.account indexDb scan).Exclusive where
  each := fun index child found live =>
    ⟨(exclusive.each index child found live).counted, (exclusive.each index child found live).back⟩
  numbered := exclusive.numbered
  registered := exclusive.registered
  waiting := exclusive.waiting
  silent := by
    intro entry member
    rcases List.mem_append.mp member with old | new
    · exact exclusive.silent entry old
    · obtain ⟨effect, inScan, rfl⟩ := List.mem_map.mp new
      by_contra some_
      rw [quiet (Nat.pos_of_ne_zero some_)] at inScan
      cases inScan

theorem resumes_in_append (mailbox : List Message) (message : Message) :
    resumesIn (mailbox ++ [message]) = resumesIn mailbox + resumesIn [message] :=
  List.countP_append

theorem Exclusive.cast (exclusive : system.Exclusive) (index : Nat) (message : Message)
    (room : ∀ child, system.children index = some child → child.Live →
      system.brackets child.indexDb + resumesIn child.mailbox + resumesIn [message] +
        answeredBy system.phase index ≤ child.state.jobPauses) :
    (system.cast index message).Exclusive := by
  unfold Supervision.cast
  split
  · exact exclusive
  · rename_i child found
    split
    · rename_i live
      refine exclusive.set_child found rfl id fun _ => ⟨?_, (exclusive.each index child found live).back⟩
      have counted := room child found live
      dsimp only
      rw [resumes_in_append]
      omega
    · exact exclusive

theorem Exclusive.cast_plain (exclusive : system.Exclusive) (index : Nat) (message : Message)
    (plain : resumesIn [message] = 0) : (system.cast index message).Exclusive :=
  exclusive.cast index message fun child found live => by
    have counted := (exclusive.each index child found live).counted
    omega

theorem cast_frame (system : Supervision) (index : Nat) (message : Message) :
    (system.cast index message).actors = system.actors ∧ (system.cast index message).phase = system.phase ∧
    (system.cast index message).brackets = system.brackets := by
  unfold Supervision.cast
  split
  · exact ⟨rfl, rfl, rfl⟩
  · split <;> exact ⟨rfl, rfl, rfl⟩

theorem Exclusive.stop (exclusive : system.Exclusive) (index : Nat) : (system.stop index).Exclusive := by
  unfold Supervision.stop
  split
  · exact exclusive
  · rename_i child found
    split
    · rename_i running
      have live : child.Live := by
        rw [Child.Live, running]
        decide
      have held := exclusive.each index child found live
      exact exclusive.set_child found rfl (fun _ => live) fun _ => ⟨held.counted, held.back⟩
    · exact exclusive

theorem stop_frame (system : Supervision) (index : Nat) :
    (system.stop index).actors = system.actors ∧ (system.stop index).phase = system.phase ∧
    (system.stop index).brackets = system.brackets := by
  unfold Supervision.stop
  split
  · exact ⟨rfl, rfl, rfl⟩
  · split <;> exact ⟨rfl, rfl, rfl⟩

theorem Exclusive.unregister (exclusive : system.Exclusive) (ready : system.phase = .ready)
    (actors : KeyedMap String Nat) (fewer : ∀ indexDb index, actors.lookup indexDb = some index →
      system.actors.lookup indexDb = some index) : { system with actors }.Exclusive where
  each := fun index child found live =>
    ⟨(exclusive.each index child found live).counted, (exclusive.each index child found live).back⟩
  numbered := exclusive.numbered
  registered := fun indexDb index isRegistered =>
    exclusive.registered indexDb index (fewer indexDb index isRegistered)
  waiting := by
    intro indexDb index answered isPausing
    cases ready.symm.trans isPausing
  silent := exclusive.silent

/-- What a pass of the supervisor keeps: it is not waiting, and the pauses stay
open. -/
structure Passed (before after : Supervision) : Prop where
  exclusive : after.Exclusive
  ready : after.phase = .ready
  brackets : after.brackets = before.brackets

theorem stop_actor_passed (exclusive : system.Exclusive) (ready : system.phase = .ready)
    (indexDb : String) : Passed system (system.stopActor indexDb) ∧
      ∀ other, other ≠ indexDb →
        (system.stopActor indexDb).actors.lookup other = system.actors.lookup other := by
  unfold stopActor
  split
  · exact ⟨⟨exclusive, ready, rfl⟩, fun _ _ => rfl⟩
  · rename_i index _
    obtain ⟨sameActors, samePhase, sameBrackets⟩ := stop_frame system index
    refine ⟨⟨(exclusive.stop index).unregister (samePhase.trans ready) _ fun other found => ?_,
      samePhase.trans ready, sameBrackets⟩, fun other apart => AList.lookup_erase_ne apart⟩
    intro isRegistered
    rw [KeyedMap.lookup_erase_eq] at isRegistered
    split_ifs at isRegistered
    rw [sameActors]
    exact isRegistered

variable {indexDb : String}

theorem spawn_passed (exclusive : system.Exclusive) (ready : system.phase = .ready) {world : World}
    {config : ScanConfig} {after : Supervision}
    (free : system.brackets indexDb = 0) (spawned : system.spawn indexDb world config = some after) :
    Passed system after ∧ ∀ other index, system.actors.lookup other = some index →
      (after.actors.lookup other).isSome := by
  unfold spawn at spawned
  split at spawned
  · cases spawned
  · split at spawned
    · cases spawned
    · rename_i scan starts
      obtain ⟨back, noPause⟩ := Scan.pre_start_held_back starts
      have accounted := exclusive.account indexDb scan fun some_ => by omega
      have isAfter := (Option.some.inj spawned).symm
      have actors : after.actors = system.actors.insert indexDb system.nextChild := by
        rw [isAfter]
      have children : after.children = Function.update system.children system.nextChild
          (some ⟨indexDb, scan.state, [.updateConfig config], .running⟩) := by
        rw [isAfter]
        rfl
      have next : after.nextChild = system.nextChild + 1 := by rw [isAfter]
      have phase : after.phase = .ready := by
        rw [isAfter]
        exact ready
      have brackets : after.brackets = system.brackets := by
        rw [isAfter]
        rfl
      have log : after.log = (system.account indexDb scan).log := by
        rw [isAfter]
        rfl
      refine ⟨⟨⟨fun other otherChild isOther live => ?_, fun other otherChild isOther => ?_,
        fun other index isRegistered => ?_, fun _ _ _ isPausing => ?_, by rw [log]; exact
        accounted.silent⟩, phase, brackets⟩, fun other index isRegistered => ?_⟩
      · rw [children] at isOther
        by_cases same : other = system.nextChild
        · subst same
          rw [Function.update_self] at isOther
          cases isOther
          refine ⟨?_, back⟩
          change after.brackets indexDb + 0 + answeredBy after.phase system.nextChild ≤ _
          rw [brackets, free, phase]
          exact Nat.zero_le _
        · rw [Function.update_of_ne same] at isOther
          have kept := exclusive.each other otherChild isOther live
          refine ⟨?_, kept.back⟩
          rw [brackets, phase, ← ready]
          exact kept.counted
      · rw [children] at isOther
        rw [next]
        by_cases same : other = system.nextChild
        · omega
        · rw [Function.update_of_ne same] at isOther
          exact Nat.lt_succ_of_lt (exclusive.numbered other otherChild isOther)
      · rw [actors, KeyedMap.lookup_insert_eq] at isRegistered
        rw [children]
        split_ifs at isRegistered with same
        · cases isRegistered
          exact ⟨_, Function.update_self _ _ _, same.symm⟩
        · obtain ⟨child, found, isDb⟩ := exclusive.registered other index isRegistered
          have apart : index ≠ system.nextChild :=
            Nat.ne_of_lt (exclusive.numbered index child found)
          exact ⟨child, by rw [Function.update_of_ne apart]; exact found, isDb⟩
      · cases phase.symm.trans isPausing
      · rw [actors, KeyedMap.lookup_insert_eq]
        split
        · rfl
        · rw [isRegistered]
          rfl

/-- A listing that would start an actor. -/
def Starts (system : Supervision) (listing : Listing) : Prop :=
  (∃ config, listing.config = some config ∧ config.enabled = true) ∧ listing.hasIndex = true ∧
    system.actors.lookup listing.indexDb = none

theorem sync_single_db_passed (exclusive : system.Exclusive) (ready : system.phase = .ready)
    {listing : Listing} (free : system.Starts listing → system.brackets listing.indexDb = 0) :
    Passed system (system.syncSingleDb listing) := by
  have unchanged : Passed system system := ⟨exclusive, ready, rfl⟩
  unfold syncSingleDb
  split
  · exact unchanged
  · rename_i config isConfig
    split
    · exact (stop_actor_passed exclusive ready listing.indexDb).1
    split
    · exact (stop_actor_passed exclusive ready listing.indexDb).1
    rename_i hasIndex enabled
    split
    · rename_i index _
      obtain ⟨-, samePhase, sameBrackets⟩ := cast_frame system index (.updateConfig config)
      exact ⟨exclusive.cast_plain index _ rfl, samePhase.trans ready, sameBrackets⟩
    · rename_i absent
      cases spawned : system.spawn listing.indexDb listing.world config with
      | none => exact unchanged
      | some after =>
        exact (spawn_passed exclusive ready (free ⟨⟨config, isConfig,
          (Bool.not_eq_false _).mp enabled⟩, (Bool.not_eq_false _).mp hasIndex, absent⟩) spawned).1

theorem stop_undesired_passed (names existing : List String) : ∀ {system : Supervision},
    system.Exclusive → system.phase = .ready → Passed system (stopUndesired names existing system) ∧ ∀ name ∈ names,
      (stopUndesired names existing system).actors.lookup name = system.actors.lookup name := by
  induction existing with
  | nil => exact fun exclusive ready => ⟨⟨exclusive, ready, rfl⟩, fun _ _ => rfl⟩
  | cons first rest ih =>
    intro system exclusive ready
    unfold stopUndesired
    split
    · exact ih exclusive ready
    · rename_i undesired
      obtain ⟨passed, others⟩ := stop_actor_passed exclusive ready first
      obtain ⟨later, kept⟩ := ih passed.exclusive passed.ready
      refine ⟨⟨later.exclusive, later.ready, later.brackets.trans passed.brackets⟩,
        fun name member => (kept name member).trans (others name ?_)⟩
      rintro rfl
      exact undesired member

theorem start_desired_passed (wanted : List (Listing × ScanConfig)) : ∀ {system : Supervision},
    system.Exclusive → system.phase = .ready →
    (∀ listed ∈ wanted, system.actors.lookup listed.1.indexDb = none →
      system.brackets listed.1.indexDb = 0) → Passed system (startDesired wanted system) := by
  induction wanted with
  | nil => exact fun exclusive ready _ => ⟨exclusive, ready, rfl⟩
  | cons first rest ih =>
    intro system exclusive ready free
    obtain ⟨listing, config⟩ := first
    have restFree := fun listed member => free listed (List.mem_cons_of_mem _ member)
    unfold startDesired
    split
    · rename_i index _
      obtain ⟨sameActors, samePhase, sameBrackets⟩ :=
        cast_frame system index (.updateConfig config)
      have later := ih (exclusive.cast_plain index (.updateConfig config) rfl)
        (samePhase.trans ready) fun listed member absent => by
          rw [sameActors] at absent
          rw [sameBrackets]
          exact restFree listed member absent
      exact ⟨later.exclusive, later.ready, later.brackets.trans sameBrackets⟩
    · rename_i absent
      split
      · exact ⟨exclusive, ready, rfl⟩
      · rename_i after spawned
        obtain ⟨passed, kept⟩ := spawn_passed exclusive ready
          (free _ List.mem_cons_self absent) spawned
        have later := ih passed.exclusive passed.ready fun listed member stillAbsent => by
          rw [passed.brackets]
          refine restFree listed member ?_
          by_contra some_
          obtain ⟨index, found⟩ := Option.ne_none_iff_exists'.mp some_
          have registered := kept _ index found
          rw [stillAbsent] at registered
          cases registered
        exact ⟨later.exclusive, later.ready, later.brackets.trans passed.brackets⟩

theorem resync_from_disk_passed (exclusive : system.Exclusive) (ready : system.phase = .ready)
    {listings : List Listing} (free : ∀ listing ∈ listings, system.Starts listing →
      system.brackets listing.indexDb = 0) :
    Passed system (system.resyncFromDisk (some listings)) := by
  have isDesired : ∀ listed ∈ desired listings, listed.1 ∈ listings ∧
      (∃ config, listed.1.config = some config ∧ config.enabled = true) ∧
      listed.1.hasIndex = true := by
    intro listed member
    obtain ⟨listing, inListings, isListed⟩ := List.mem_filterMap.mp member
    split at isListed
    · cases isListed
    · rename_i config isConfig
      split_ifs at isListed with able
      rw [Bool.and_eq_true] at able
      cases isListed
      exact ⟨inListings, ⟨config, isConfig, able.2⟩, able.1⟩
  obtain ⟨stopped, kept⟩ := stop_undesired_passed
    ((desired listings).map fun listed => listed.1.indexDb) system.actors.keys exclusive ready
  have started := start_desired_passed (desired listings) stopped.exclusive stopped.ready
    fun listed member absent => by
      rw [kept _ (List.mem_map_of_mem member)] at absent
      rw [stopped.brackets]
      obtain ⟨inListings, enabled, hasIndex⟩ := isDesired listed member
      exact free listed.1 inListings ⟨enabled, hasIndex, absent⟩
  exact ⟨started.exclusive, started.ready, started.brackets.trans stopped.brackets⟩

theorem Exclusive.reply_pause (exclusive : system.Exclusive)
    (room : ∀ index child, system.children index = some child → child.Live →
      child.indexDb = indexDb →
      system.brackets indexDb + 1 + resumesIn child.mailbox ≤ child.state.jobPauses) :
    (system.replyPause indexDb).Exclusive where
  each := by
    intro index child found live
    have kept := exclusive.each index child found live
    refine ⟨?_, kept.back⟩
    change Function.update system.brackets indexDb (system.brackets indexDb + 1) child.indexDb + _ +
      0 ≤ _
    by_cases same : child.indexDb = indexDb
    · rw [same, Function.update_self]
      exact room index child found live same
    · rw [Function.update_of_ne same]
      have counted := kept.counted
      omega
  numbered := exclusive.numbered
  registered := exclusive.registered
  waiting := fun _ _ _ isPausing => by cases isPausing
  silent := exclusive.silent

/-- Every actor alive is the registered one, and will be told. -/
def Known (system : Supervision) (indexDb : String) : Prop :=
  ∀ index child, system.children index = some child → child.Live → child.indexDb = indexDb →
    system.shuttingDown = false ∧ system.actors.lookup indexDb = some index

section

variable (exclusive : system.Exclusive)

include exclusive

theorem Exclusive.pause_for_job (known : system.Known indexDb) : (system.pauseForJob indexDb).Exclusive := by
  have noneAlive : (∀ index child, system.children index = some child → child.Live →
      child.indexDb = indexDb → False) → (system.replyPause indexDb).Exclusive :=
    fun none_ => exclusive.reply_pause fun index child found live isDb =>
      absurd (none_ index child found live isDb) id
  unfold pauseForJob
  split
  · rename_i down
    refine noneAlive fun index child found live isDb => ?_
    have up := (known index child found live isDb).1
    rw [down] at up
    cases up
  · split
    · rename_i absent
      refine noneAlive fun index child found live isDb => ?_
      have registered := (known index child found live isDb).2
      rw [absent] at registered
      cases registered
    · rename_i told isTold
      have only : ∀ index child, system.children index = some child → child.Live →
          child.indexDb = indexDb → index = told := by
        intro index child found live isDb
        have registered := (known index child found live isDb).2
        rw [isTold] at registered
        exact (Option.some.inj registered).symm
      split
      · rename_i missing
        refine noneAlive fun index child found live isDb => ?_
        rw [only index child found live isDb, missing] at found
        cases found
      · rename_i child found
        split
        · have sent := exclusive.cast_plain told .pause rfl
          obtain ⟨sameActors, -, sameBrackets⟩ := cast_frame system told .pause
          refine ⟨fun index other isOther live => ?_, sent.numbered, sent.registered,
            fun waitedDb waited answered isPausing index other isOther live isDb => ?_, sent.silent⟩
          · have kept := sent.each index other isOther live
            have counted := kept.counted
            refine ⟨?_, kept.back⟩
            change (system.cast told .pause).brackets other.indexDb + _ + 0 ≤ _
            omega
          · cases isPausing
            have isSent : (system.cast told .pause).children =
                Function.update system.children told
                  (some { child with mailbox := child.mailbox ++ [.pause] }) := by
              unfold Supervision.cast
              rename_i isLive
              rw [found]
              dsimp only
              rw [if_pos isLive]
              rfl
            change (system.cast told .pause).children index = some other at isOther
            by_cases same : index = told
            · exact same
            · rw [isSent, Function.update_of_ne same] at isOther
              exact only index other isOther live isDb
        · rename_i dead
          refine noneAlive fun index other isOther live isDb => ?_
          rw [only index other isOther live isDb, found] at isOther
          cases isOther
          exact dead live

theorem Exclusive.pause_answered : system.pauseAnswered.Exclusive := by
  unfold pauseAnswered
  split
  · exact exclusive
  · rename_i indexDb waited answered isPausing
    split
    · rename_i isAnswered
      refine exclusive.reply_pause fun index child found live isDb => ?_
      have same := exclusive.waiting indexDb waited answered isPausing index child found live isDb
      subst same
      have counted := (exclusive.each index child found live).counted
      have told : answered = true := isAnswered.resolve_right fun gone => gone child found live
      rw [isPausing, told, isDb] at counted
      simp only [answeredBy, if_true] at counted
      omega
    · exact exclusive

theorem Exclusive.fewer_brackets {count : Nat}
    (fewer : count ≤ system.brackets indexDb) : (system.setBrackets indexDb count).Exclusive where
  each := by
    intro index child found live
    have kept := exclusive.each index child found live
    have counted := kept.counted
    refine ⟨?_, kept.back⟩
    change Function.update system.brackets indexDb count child.indexDb + _ +
      answeredBy system.phase index ≤ _
    by_cases same : child.indexDb = indexDb
    · rw [same, Function.update_self]
      rw [same] at counted
      omega
    · rw [Function.update_of_ne same]
      exact counted
  numbered := exclusive.numbered
  registered := exclusive.registered
  waiting := exclusive.waiting
  silent := exclusive.silent

theorem Exclusive.resume_after_job (ready : system.phase = .ready)
    {listing : Listing} (isOpen : 0 < system.brackets listing.indexDb)
    (last : system.Starts listing → system.brackets listing.indexDb ≤ 1) :
    (system.resumeAfterJob listing).Exclusive := by
  have closed := exclusive.fewer_brackets (Nat.sub_le (system.brackets listing.indexDb) 1)
  have count : (system.setBrackets listing.indexDb (system.brackets listing.indexDb - 1)).brackets
      listing.indexDb = system.brackets listing.indexDb - 1 := Function.update_self _ _ _
  unfold resumeAfterJob
  dsimp only
  split
  · exact closed
  · split
    · rename_i index isRegistered
      refine closed.cast index .resume fun child found live => ?_
      obtain ⟨registered, isChild, isDb⟩ := exclusive.registered _ _ isRegistered
      have same : child = registered := Option.some.inj (found.symm.trans isChild)
      subst same
      have counted := (exclusive.each index child found live).counted
      rw [isDb] at counted ⊢
      rw [count]
      change _ + _ + 1 + answeredBy system.phase index ≤ _
      omega
    · refine (sync_single_db_passed closed ready fun starts => ?_).exclusive
      have few := last starts
      rw [count]
      omega

end

theorem Exclusive.stop_all (indices : List Nat) : ∀ {system : Supervision}, system.Exclusive →
    (stopAll indices system).Exclusive ∧
      (stopAll indices system).phase = system.phase := by
  induction indices with
  | nil => exact fun exclusive => ⟨exclusive, rfl⟩
  | cons first rest ih =>
    intro system exclusive
    obtain ⟨later, samePhase⟩ := ih (exclusive.stop first)
    exact ⟨later, samePhase.trans (stop_frame system first).2.1⟩

theorem Exclusive.shutdown (exclusive : system.Exclusive) (ready : system.phase = .ready) :
    system.shutdown.Exclusive := by
  obtain ⟨stopped, samePhase⟩ :=
    Exclusive.stop_all (system.actors.entries.map fun entry => entry.2) exclusive
  have none_ := stopped.unregister (samePhase.trans ready) ∅ fun _ _ found => by
    cases found
  exact ⟨fun index child found live => ⟨(none_.each index child found live).counted,
    (none_.each index child found live).back⟩, none_.numbered, none_.registered, none_.waiting,
    none_.silent⟩

theorem answered_by_other {index other : Nat} (apart : other ≠ index)
    (message : Message) : answeredBy (Phase.answer phase index message) other =
      answeredBy phase other := by
  unfold Phase.answer
  split
  · rename_i answered
    split
    · rename_i same
      subst same
      cases answered <;> simp [answeredBy, apart.symm]
    · rfl
  · rfl

theorem answered_by_le (phase : Phase) (index : Nat) : answeredBy phase index ≤ 1 := by
  unfold answeredBy
  split
  · split <;> decide
  · exact Nat.zero_le 1

variable {message : Message}

theorem answer_plain (phase : Phase) (index : Nat)
    (notPause : message ≠ .pause) : Phase.answer phase index message = phase := by
  unfold Phase.answer
  split
  · exact absurd rfl notPause
  · rfl

theorem answer_pausing {index waited : Nat}
    {answered : Bool} (isPausing : Phase.answer phase index message = .pausing indexDb waited answered) :
    ∃ before, phase = .pausing indexDb waited before := by
  unfold Phase.answer at isPausing
  split at isPausing
  · split at isPausing
    · cases isPausing
      exact ⟨_, rfl⟩
    · exact ⟨_, isPausing⟩
  · exact ⟨_, isPausing⟩

theorem counted_after {brackets jobPauses index : Nat} {rest : List Message}
    (counted : brackets + resumesIn (message :: rest) + answeredBy phase index ≤ jobPauses) :
    brackets + resumesIn rest + answeredBy (Phase.answer phase index message) index ≤
      Scan.countAfter jobPauses message := by
  rw [resumesIn, List.countP_cons] at counted
  change brackets + (resumesIn rest + _) + _ ≤ _ at counted
  cases message with
  | pause =>
    have one := answered_by_le (Phase.answer phase index .pause) index
    change _ ≤ jobPauses + 1
    omega
  | resume =>
    rw [answer_plain phase index (by simp)]
    simp only [if_true] at counted
    change _ ≤ jobPauses - 1
    omega
  | updateConfig | fsEvent | pollTick | pollCompleted | settleCheck | dispatchStable | workerResult
  | getStatus =>
    rw [answer_plain phase index (by simp)]
    change _ ≤ jobPauses
    omega

theorem Exclusive.handle_next (exclusive : system.Exclusive) (index : Nat) (world : World)
    (word : ∀ child, system.children index = some child → child.mailbox.head? = some .pause →
      child.state.jobPauses + 1 < 2 ^ 32) : (system.handleNext index world).Exclusive := by
  unfold handleNext
  split
  · exact exclusive
  rename_i child found
  split
  · exact exclusive
  rename_i working
  rw [not_or] at working
  have held := exclusive.each index child found working.1
  split
  · exact exclusive
  rename_i message rest isMailbox
  have counted := held.counted
  rw [isMailbox] at counted
  have resumes : message = .resume → 1 ≤ resumesIn (message :: rest) := by
    rintro rfl
    rw [resumesIn, List.countP_cons]
    exact Nat.le_add_left 1 _
  obtain ⟨back, moved⟩ := @Scan.handle_held_back world
    ⟨child.state, system.tables child.indexDb, []⟩ held.back message
    (fun isPause => word child found (by rw [isMailbox, isPause]; rfl))
    (fun isResume => by have one := resumes isResume; change 0 < child.state.jobPauses; omega)
  have accounted := exclusive.account child.indexDb
    ((Scan.mk child.state (system.tables child.indexDb) []).handle world message) fun some_ =>
    Scan.handle_silent held.back (by change 0 < child.state.jobPauses; omega) fun isResume => by
      have one := resumes isResume
      change 1 < child.state.jobPauses
      omega
  have after := counted_after counted
  dsimp only
  refine accounted.set_child_phase found rfl (fun _ => working.1) (fun _ => ?_) (fun _ => back)
    (fun other apart => answered_by_other apart message) fun indexDb waited answered isPausing => ?_
  · rw [moved]
    exact after
  · exact answer_pausing isPausing

theorem Exclusive.terminate (exclusive : system.Exclusive) (index : Nat) (world : World) :
    (system.terminate index world).Exclusive := by
  unfold Supervision.terminate
  split
  · exact exclusive
  rename_i child found
  split
  · exact exclusive
  rename_i working
  rw [not_or] at working
  have held := exclusive.each index child found working.2
  have accounted := exclusive.account child.indexDb
    ((Scan.mk child.state (system.tables child.indexDb) []).postStop world) fun some_ => by
      have counted := held.counted
      have paused := held.back.held (by omega)
      exact Scan.close_scan_silent (held.back.rowless paused)
  exact accounted.set_child found rfl (fun live => absurd rfl live) fun live => absurd rfl live

theorem Exclusive.crash (exclusive : system.Exclusive) (index : Nat) : (system.crash index).Exclusive := by
  unfold Supervision.crash
  split
  · exact exclusive
  · rename_i child found
    exact exclusive.set_child found rfl (fun live => absurd rfl live) fun live => absurd rfl live

/-- What a step meets: no actor is started while a pause of its database is open;
when a pause is asked for, every actor of the database that is alive is told; and
the count of an actor does not wrap. -/
def Admitted (system : Supervision) : SupervisorOp → Prop
  | .configChanged listing => system.Starts listing → system.brackets listing.indexDb = 0
  | .resyncFromDisk listings => ∀ listing ∈ listings.getD [], system.Starts listing →
      system.brackets listing.indexDb = 0
  | .resumeAfterJob listing => system.Starts listing → system.brackets listing.indexDb ≤ 1
  | .pauseForJob indexDb => system.Known indexDb
  | .handleNext index _ => ∀ child, system.children index = some child →
      child.mailbox.head? = some .pause → child.state.jobPauses + 1 < 2 ^ 32
  | _ => True

theorem step_exclusive (exclusive : system.Exclusive) {op : SupervisorOp}
    (admitted : system.Admitted op) : (system.step op).Exclusive := by
  cases op with
  | configChanged listing =>
    unfold step
    dsimp only
    split
    · rename_i ready
      exact (sync_single_db_passed exclusive ready.1 admitted).exclusive
    · exact exclusive
  | resyncFromDisk listings =>
    unfold step
    dsimp only
    split
    · rename_i ready
      cases listings with
      | none => exact exclusive
      | some listings => exact (resync_from_disk_passed exclusive ready.1 admitted).exclusive
    · exact exclusive
  | pauseForJob indexDb =>
    unfold step
    dsimp only
    split
    · exact exclusive.pause_for_job admitted
    · exact exclusive
  | pauseAnswered => exact exclusive.pause_answered
  | resumeAfterJob listing =>
    unfold step
    dsimp only
    split
    · rename_i ready
      exact exclusive.resume_after_job ready.1 ready.2 admitted
    · exact exclusive
  | shutdown =>
    unfold step
    dsimp only
    split
    · rename_i ready
      exact exclusive.shutdown ready
    · exact exclusive
  | deliver index message plain =>
    refine exclusive.cast_plain index message ?_
    cases message with
    | resume => cases plain
    | pause | updateConfig | fsEvent | pollTick | pollCompleted | settleCheck | dispatchStable
    | workerResult | getStatus => rfl
  | handleNext index world => exact exclusive.handle_next index world admitted
  | terminate index world => exact exclusive.terminate index world
  | crash index => exact exclusive.crash index

end

end Supervision

/-- A supervisor that has not started an actor. -/
def supervisorMachine (tables : String → FileScans) : Machine Supervision SupervisorOp where
  init :=
    { actors := ∅, phase := .ready, shuttingDown := false, children := fun _ => none, nextChild := 0
      tables, brackets := fun _ => 0, log := [] }
  step := Supervision.step

/-- No actor of the database is unpaused, and none has written or dispatched
anything while one of its pauses was open. -/
structure Supervision.Excluded (system : Supervision) : Prop where
  paused : ∀ indexDb, 0 < system.brackets indexDb → ∀ index child,
    system.children index = some child → child.Live → child.indexDb = indexDb →
    child.state.paused = true
  silent : ∀ indexDb opened effect, (indexDb, opened, effect) ∈ system.log → opened = 0

theorem init_exclusive (tables : String → FileScans) : (supervisorMachine tables).init.Exclusive where
  each := fun _ _ found _ => by cases found
  numbered := fun _ _ found => by cases found
  registered := fun _ _ found => by cases found
  waiting := fun _ _ _ isPausing => by cases isPausing
  silent := fun _ member => by cases member

/-- Jobs are exclusive with continuous scans in runs of admitted steps. -/
theorem run_excluded (tables : String → FileScans) (ops : List SupervisorOp)
    (admitted : (supervisorMachine tables).AdmittedRun Supervision.Admitted ops) :
    ((supervisorMachine tables).run ops).Excluded := by
  have exclusive : ((supervisorMachine tables).run ops).Exclusive :=
    (supervisorMachine tables).run_invariant Supervision.Exclusive Supervision.Admitted
      (init_exclusive tables) (fun _ _ admitted exclusive => Supervision.step_exclusive exclusive admitted) ops admitted
  refine ⟨fun indexDb opened index child found live isDb => ?_, fun indexDb opened effect member =>
    exclusive.silent _ member⟩
  have held := exclusive.each index child found live
  have counted := held.counted
  rw [isDb] at counted
  exact held.back.held (by omega)

/-- A database whose scanning is enabled or not, with valid roots. -/
def listingOf (enabled : Bool) : Supervision.Listing :=
  ⟨"x", some ⟨enabled, none, false⟩, true, enabledWorld true⟩

def emptyTables : String → FileScans := fun _ => FileScans.empty

/-- An actor is started, and a job pauses it. -/
def pausedForJob : List SupervisorOp :=
  [.configChanged (listingOf true), .handleNext 0 (enabledWorld true), .pauseForJob "x",
    .handleNext 0 (enabledWorld true), .pauseAnswered]

theorem paused_for_job_excluded :
    ((supervisorMachine emptyTables).run pausedForJob).brackets "x" = 1 ∧
    ((supervisorMachine emptyTables).run pausedForJob).Excluded := by
  refine ⟨rfl, run_excluded emptyTables pausedForJob ⟨fun _ => rfl, fun child found _ => ?_,
    fun index child found _ _ => ?_, fun child found _ => ?_, trivial, trivial⟩⟩
  · cases found
    decide
  · cases index with
    | zero => exact ⟨rfl, rfl⟩
    | succ index => cases found
  · cases found
    decide

/-- A job pauses the database before its actor is started, and a job pauses it
while a stopped actor is not yet gone. -/
theorem runs_not_excluded :
    (∃ child, ((supervisorMachine emptyTables).run
      [.pauseForJob "x", .configChanged (listingOf true)]).children 0 = some child ∧
      child.life = .running ∧ child.indexDb = "x" ∧ child.state.paused = false) ∧
    ((supervisorMachine emptyTables).run
      [.pauseForJob "x", .configChanged (listingOf true)]).brackets "x" = 1 ∧
    (∃ child, ((supervisorMachine emptyTables).run [.configChanged (listingOf true),
      .configChanged (listingOf false), .pauseForJob "x"]).children 0 = some child ∧
      child.life = .stopping true ∧ child.indexDb = "x" ∧ child.state.paused = false) ∧
    ((supervisorMachine emptyTables).run [.configChanged (listingOf true),
      .configChanged (listingOf false), .pauseForJob "x"]).brackets "x" = 1 ∧
    ¬∀ (tables : String → FileScans) (ops : List SupervisorOp),
      ((supervisorMachine tables).run ops).Excluded := by
  refine ⟨⟨_, rfl, rfl, rfl, rfl⟩, rfl, ⟨_, rfl, rfl, rfl, rfl⟩, rfl, fun excluded => ?_⟩
  have paused := (excluded emptyTables [.pauseForJob "x", .configChanged (listingOf true)]).paused
    "x" (by decide) 0 _ rfl (by decide) rfl
  exact absurd paused (by decide)

end Panoptikon.ContinuousScan
