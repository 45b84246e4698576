import BuddySystem.Proofs.Arena.Erasure
import BuddySystem.Proofs.Provider

/-!
# Paths to an arena

The paths on which an arena can be used: directly, as the subject of an evaluation, or behind the
general allocator interface, and there through a tower of providers each of which passes every call
on or counts it. Whatever paths were taken before, a use comes to what it comes to directly, except
that a rejection breaks it off (`Path.seen`), and it leaves the same arena and the same events
(`Path.run_use`). The counts of a provider that counts are the numbers of calls that went through
it, whatever came of them. `pathsAgree` puts this together for all sequences of visits in which no
number of calls leaves the range of words (`Metered.InRange`): a call that cannot be counted is
broken off before it is passed on.

Providers that count are told apart by the numbers of their meters. So the state of a tower is a
part of a state with all meters (`Layers.focus`), and the towers of different visits may share some
of their providers.
-/

namespace BuddySystem

open Arena

/-! ## Towers of providers -/

/-- A provider that stands before another one. -/
inductive Layer where
  /-- Passes every call on, as a reference to the other one does, or a box that holds it. -/
  | forwarded
  /-- Counts the calls on the meter with this number. -/
  | counted (meter : Nat)

/-- The meter that a provider counts on. -/
def Layer.meter? : Layer → Option Nat
  | .forwarded => none
  | .counted meter => some meter

/-- An arena with its events, and what is counted on the meters. -/
structure Metered (config : Config) where
  logged : Logged (Arena config)
  counts : Nat → Counts

namespace Metered

variable {config : Config}

/-- The arena without the meters. -/
def inside : Focus (Metered config) (Logged (Arena config)) :=
  ⟨Metered.logged, fun logged metered => { metered with logged }⟩

/-- Sets a meter. -/
def set (meter : Nat) (counts : Counts) (metered : Metered config) : Metered config :=
  { metered with counts := Function.update metered.counts meter counts }

end Metered

namespace Layers

/-- The meters of the providers in a tower. -/
def meters (layers : List Layer) : List Nat :=
  layers.filterMap Layer.meter?

/-- The states of a tower. -/
def State (config : Config) : List Layer → Type
  | [] => Logged (Arena config)
  | .forwarded :: layers => State config layers
  | .counted _ :: layers => Counted (State config layers)

variable {config : Config}

/-- A tower as a provider. -/
def provider : (layers : List Layer) → OwningProvider (State config layers)
  | [] => Arena.general
  | .forwarded :: layers => (provider layers).forwarded
  | .counted _ :: layers => (provider layers).counted

/-- The state of a tower as a part of a state with all meters. -/
def focus : (layers : List Layer) → Focus (Metered config) (State config layers)
  | [] => Metered.inside
  | .forwarded :: layers => focus layers
  | .counted meter :: layers =>
      { view := fun metered => ⟨(focus layers).view metered, metered.counts meter⟩
        update := fun counted metered =>
          ((focus layers).update counted.inner metered).set meter counted.counts }

end Layers

/-- Providers before an arena, the outermost first. No two of them count on the same meter. -/
structure Tower where
  layers : List Layer
  nodup : (Layers.meters layers).Nodup

/-! ## Paths -/

/-- A path to an arena. -/
inductive Path where
  | direct
  /-- As the subject of an evaluation. -/
  | subject
  /-- Behind the general allocator interface, through the providers of a tower. -/
  | general (tower : Tower)

/-- What becomes of a use behind an interface where a rejection breaks it off. -/
def Outcome.behind (abort : Rejection → Abort) : Outcome → Outcome
  | .rejected reason => .broken (abort reason)
  | outcome => outcome

/-- Uses a provider. -/
def Provider.act {σ : Type} (provider : Provider σ) : Use → Call σ Outcome
  | .allocate size align => do
      match ← provider.allocate size align with
      | some slice => return .served slice
      | none => return .refused
  | .deallocate addr size align => do
      provider.deallocate addr size align
      return .released

/-- What a use has come to, and the state that it has left, also if it was broken off. -/
def settled {σ : Type} : EStateM.Result Abort σ Outcome → Outcome × σ
  | .ok outcome after => (outcome, after)
  | .error abort after => (.broken abort, after)

/-- Whether one more call of the kind can be counted with a word. -/
def Counts.HasRoom (counts : Counts) : Use → Prop
  | .allocate .. => counts.allocs + 1 < Word.bound
  | .deallocate .. => counts.deallocs + 1 < Word.bound

/-- Counts a call. -/
def Use.tally : Use → Counts → Counts
  | .allocate .., counts => { counts with allocs := counts.allocs + 1 }
  | .deallocate .., counts => { counts with deallocs := counts.deallocs + 1 }

/-- Counts a call on some meters. -/
def Use.tallyOn (use : Use) (meters : List Nat) (counts : Nat → Counts) (meter : Nat) : Counts :=
  if meter ∈ meters then use.tally (counts meter) else counts meter

namespace Path

/-- The meters on a path. -/
def meters : Path → List Nat
  | .direct => []
  | .subject => []
  | .general tower => Layers.meters tower.layers

/-- What a use comes to on a path if it comes to this directly. -/
def seen : Path → Outcome → Outcome
  | .direct, outcome => outcome
  | .subject, outcome => outcome.behind .rejected
  | .general _, outcome => outcome.behind .contract

/-- The text before the one of a rejection where a rejection breaks a use off. -/
def lead? : Path → Option String
  | .direct => none
  | .subject => some "deallocation rejected: "
  | .general _ => some "buddy allocator contract violation: "

variable {config : Config}

/-- Uses an arena on a path. -/
def perform : Path → Use → Call (Metered config) Outcome
  | .direct, use => Metered.inside.run (Attempt.mk .direct use).perform
  | .subject, use => Metered.inside.run (Arena.subject.act use)
  | .general tower, use => (Layers.focus tower.layers).run ((Layers.provider tower.layers).act use)

/-- Uses an arena on a path, and goes on with the state that is left if this is broken off. -/
def use (path : Path) (use : Use) (metered : Metered config) : Outcome × Metered config :=
  settled ((path.perform use).run metered)

/-- Whether a pointer points into the arena, asked on a path. -/
def owns (metered : Metered config) (addr : Nat) : Path → Bool
  | .direct => metered.logged.state.owns addr
  | .subject => Arena.subject.owns metered.logged addr
  | .general tower =>
      (Layers.provider tower.layers).owns ((Layers.focus tower.layers).view metered) addr

end Path

/-! ## Single uses -/

variable {config : Config}

theorem settled_snd {σ : Type} (result : EStateM.Result Abort σ Outcome) :
    (settled result).2 = stateOf result := by
  cases result <;> rfl

theorem settled_viewed {σ τ : Type} (view : τ → σ) (result : EStateM.Result Abort τ Outcome) :
    settled (viewed view result) = ((settled result).1, view (settled result).2) := by
  cases result <;> rfl

/-- A provider that counts does what the one below it does, and counts the call. -/
theorem Provider.run_act_counted {σ : Type} (provider : Provider σ) {use : Use}
    {before : Counted σ} (h : before.counts.HasRoom use) :
    (provider.counted.act use).run before =
      viewed (fun after => ⟨after, use.tally before.counts⟩)
        ((provider.act use).run before.inner) := by
  cases use with
  | allocate size align =>
      rw [act, EStateM.run_bind, run_allocate_counted _ _ _ h, act, EStateM.run_bind]
      cases (provider.allocate size align).run before.inner with
      | error abort after => rfl
      | ok granted after => cases granted <;> rfl
  | deallocate addr size align =>
      rw [act, EStateM.run_bind, run_deallocate_counted _ _ _ _ h, act, EStateM.run_bind]
      cases (provider.deallocate addr size align).run before.inner <;> rfl

/-- An attempt comes to the same whether or not its break-off is caught. -/
theorem settled_perform (attempt : Attempt) (logged : Logged (Arena config)) :
    settled (attempt.perform.run logged) = attempt.run logged := by
  rw [Attempt.run]
  cases attempt.perform.run logged <;> rfl

/-- An arena as a provider does what it does directly, but a rejection breaks the call off. -/
theorem Arena.settled_act (abort : Rejection → Abort) (use : Use)
    (logged : Logged (Arena config)) :
    settled (((Arena.provider abort).act use).run logged) =
      (((Attempt.mk .direct use).run logged).1.behind abort,
        ((Attempt.mk .direct use).run logged).2) := by
  cases use with
  | allocate size align =>
      rw [Attempt.run_allocate, Provider.act, EStateM.run_bind, run_provider_allocate]
      cases (allocate size align).run logged.state with
      | error fault after => rfl
      | ok result after => cases result <;> rfl
  | deallocate addr size align =>
      rw [Attempt.run_deallocate, Provider.act, EStateM.run_bind, run_provider_deallocate]
      cases (deallocate addr size align).run logged.state with
      | error fault after => rfl
      | ok result after => cases result <;> rfl

theorem Use.tallyOn_nil (use : Use) (counts : Nat → Counts) : use.tallyOn [] counts = counts :=
  funext fun _ => if_neg List.not_mem_nil

theorem Use.tallyOn_cons (use : Use) (meter : Nat) (meters : List Nat) (counts : Nat → Counts) :
    use.tallyOn (meter :: meters) counts =
      Function.update (use.tallyOn meters counts) meter (use.tally (counts meter)) := by
  funext other
  by_cases hother : other = meter
  · rw [hother, Function.update_self, tallyOn, if_pos List.mem_cons_self]
  · rw [Function.update_of_ne hother]
    simp only [tallyOn, List.mem_cons, hother, false_or]

namespace Layers

theorem meters_counted (meter : Nat) (layers : List Layer) :
    meters (.counted meter :: layers) = meter :: meters layers := rfl

/-- A tower does what the arena does behind the general allocator interface, and counts the call
on its meters. -/
theorem run_act (layers : List Layer) {use : Use} {metered : Metered config}
    (h : ∀ meter ∈ meters layers, (metered.counts meter).HasRoom use) :
    ((focus layers).run ((provider layers).act use)).run metered =
      viewed (fun after => ⟨after, use.tallyOn (meters layers) metered.counts⟩)
        ((Arena.general.act use).run metered.logged) := by
  induction layers with
  | nil => exact Focus.run_eq_viewed _ _ _
  | cons layer layers ih =>
      cases layer with
      | forwarded => exact ih h
      | counted meter =>
          rw [meters_counted, List.forall_mem_cons] at h
          replace ih := ih h.2
          let counts := use.tally (metered.counts meter)
          let inner := ((provider layers).act use).run ((focus layers).view metered)
          rw [Focus.run_eq_viewed] at ih ⊢
          calc
            _ = viewed (fun part => (focus (.counted meter :: layers)).update part metered)
                  (viewed (fun after => ⟨after, counts⟩) inner) :=
                congrArg (viewed _) ((provider layers).toProvider.run_act_counted h.1)
            _ = viewed (Metered.set meter counts)
                  (viewed (fun part => (focus layers).update part metered) inner) := by
                rw [viewed_viewed]
                exact viewed_viewed _ _ inner
            _ = viewed
                  (fun after => ⟨after, use.tallyOn (meter :: meters layers) metered.counts⟩)
                  ((Arena.general.act use).run metered.logged) := by
                rw [ih, viewed_viewed, Use.tallyOn_cons]
                rfl

/-- Every tower of providers owns what the arena owns. -/
theorem owns_eq (layers : List Layer) (metered : Metered config) (addr : Nat) :
    (provider layers).owns ((focus layers).view metered) addr =
      metered.logged.state.owns addr := by
  induction layers with
  | nil => rfl
  | cons layer layers ih => cases layer <;> exact ih

/-- A meter that is not in a tower does not belong to its state. -/
theorem view_set {layers : List Layer} {meter : Nat} (h : meter ∉ meters layers) (counts : Counts)
    (metered : Metered config) :
    (focus layers).view (metered.set meter counts) = (focus layers).view metered := by
  induction layers with
  | nil => rfl
  | cons layer layers ih =>
      cases layer with
      | forwarded => exact ih h
      | counted other =>
          rw [meters_counted, List.mem_cons, not_or] at h
          have hcounts : (metered.set meter counts).counts other = metered.counts other :=
            Function.update_of_ne (Ne.symm h.1) _ _
          exact congrArg₂ Counted.mk (ih h.2) hcounts

/-- What is left of the state of a tower is seen there. -/
theorem view_update {layers : List Layer} (h : (meters layers).Nodup)
    (part : State config layers) (metered : Metered config) :
    (focus layers).view ((focus layers).update part metered) = part := by
  induction layers with
  | nil => rfl
  | cons layer layers ih =>
      cases layer with
      | forwarded => exact ih h part
      | counted meter =>
          rw [meters_counted, List.nodup_cons] at h
          have hcounts : (((focus layers).update part.inner metered).set meter part.counts).counts
              meter = part.counts := Function.update_self _ _ _
          exact congrArg₂ Counted.mk ((view_set h.1 _ _).trans (ih h.2 part.inner)) hcounts

end Layers

namespace Path

/-- A use comes to what it comes to directly, as far as its path lets this be seen, leaves what it
leaves directly, and is counted on the meters of its path. -/
theorem run_use {path : Path} {use : Use} {metered : Metered config}
    (h : ∀ meter ∈ path.meters, (metered.counts meter).HasRoom use) :
    path.use use metered =
      (path.seen ((Attempt.mk .direct use).run metered.logged).1,
        ⟨((Attempt.mk .direct use).run metered.logged).2,
          use.tallyOn path.meters metered.counts⟩) := by
  cases path with
  | direct =>
      rw [Path.use, perform, Focus.run_eq_viewed, settled_viewed, settled_perform, meters,
        Use.tallyOn_nil]
      rfl
  | subject =>
      rw [Path.use, perform, Focus.run_eq_viewed, settled_viewed, Arena.subject,
        Arena.settled_act, meters, Use.tallyOn_nil]
      rfl
  | general tower =>
      rw [Path.use, perform, Layers.run_act _ h, settled_viewed, Arena.general, Arena.settled_act]
      rfl

/-- Whether a pointer points into the arena is the same on every path. -/
theorem owns_eq (path : Path) (metered : Metered config) (addr : Nat) :
    path.owns metered addr = metered.logged.state.owns addr := by
  cases path with
  | direct => rfl
  | subject => rfl
  | general tower => exact Layers.owns_eq _ _ _

end Path

/-- A use that is made directly is only broken off by a fault. -/
theorem Attempt.message?_of_broken {use : Use} {logged : Logged (Arena config)} {abort : Abort}
    (h : ((Attempt.mk .direct use).run logged).1 = .broken abort) : abort.message? = none := by
  cases use with
  | allocate size align =>
      rw [run_allocate] at h
      split at h
      · cases h
      · cases h
      · cases h
        rfl
  | deallocate addr size align =>
      rw [run_deallocate] at h
      split at h
      · cases h
      · cases h
      · cases h
        rfl

/-- Rejections have different texts. -/
theorem Rejection.message_inj {first second : Rejection} (h : first.message = second.message) :
    first = second := by
  revert h
  cases first <;> cases second <;> decide

/-- Where a rejection breaks a use off, the text tells it from everything else. -/
theorem Outcome.behind_eq_broken_iff {abort : Rejection → Abort} {lead : String}
    (habort : ∀ reason, (abort reason).message? = some (lead ++ reason.message)) {outcome : Outcome}
    (h : ∀ cause, outcome = .broken cause → cause.message? = none) (reason : Rejection) :
    (∃ cause, outcome.behind abort = .broken cause ∧
      cause.message? = some (lead ++ reason.message)) ↔ outcome = .rejected reason := by
  constructor
  · intro hbroken
    obtain ⟨cause, hcause, hmessage⟩ := hbroken
    cases outcome with
    | served slice => cases hcause
    | refused => cases hcause
    | released => cases hcause
    | rejected other =>
        cases hcause
        rw [habort, Option.some.injEq, String.append_right_inj] at hmessage
        rw [Rejection.message_inj hmessage]
    | broken other =>
        cases hcause
        rw [h _ rfl] at hmessage
        cases hmessage
  · rintro rfl
    exact ⟨abort reason, rfl, habort reason⟩

theorem Path.seen_eq_broken_iff {path : Path} {lead : String} (hlead : path.lead? = some lead)
    {outcome : Outcome} (h : ∀ cause, outcome = .broken cause → cause.message? = none)
    (reason : Rejection) :
    (∃ cause, path.seen outcome = .broken cause ∧
      cause.message? = some (lead ++ reason.message)) ↔ outcome = .rejected reason := by
  cases path with
  | direct => cases hlead
  | subject =>
      cases hlead
      exact Outcome.behind_eq_broken_iff (fun _ => rfl) h reason
  | general tower =>
      cases hlead
      exact Outcome.behind_eq_broken_iff (fun _ => rfl) h reason

/-! ## Sequences of visits -/

/-- Something that is done with an arena, or asked, on a path. -/
inductive Visit where
  | act (path : Path) (use : Use)
  /-- Asks whether a pointer points into the arena. -/
  | ask (path : Path) (addr : Nat)

namespace Visit

/-- The attempt that is made by a visit when it is made directly. -/
def attempt? : Visit → Option Attempt
  | .act _ use => some ⟨.direct, use⟩
  | .ask .. => none

/-- Whether a visit is a request through a provider that counts on this meter. -/
def allocatesOn (meter : Nat) : Visit → Bool
  | .act path (.allocate ..) => meter ∈ path.meters
  | .act _ (.deallocate ..) => false
  | .ask .. => false

/-- Whether a visit gives memory back through a provider that counts on this meter. -/
def deallocatesOn (meter : Nat) : Visit → Bool
  | .act path (.deallocate ..) => meter ∈ path.meters
  | .act _ (.allocate ..) => false
  | .ask .. => false

end Visit

namespace Metered

/-- Whether the numbers of calls on all meters stay words in these visits. -/
def InRange (metered : Metered config) (visits : List Visit) : Prop :=
  ∀ meter, (metered.counts meter).allocs + visits.countP (Visit.allocatesOn meter) < Word.bound ∧
    (metered.counts meter).deallocs + visits.countP (Visit.deallocatesOn meter) < Word.bound

/-- The state after a visit. -/
def afterVisit (metered : Metered config) : Visit → Metered config
  | .act path use => (path.use use metered).2
  | .ask .. => metered

/-- The state after a number of visits. -/
def afterVisits (metered : Metered config) (visits : List Visit) : Metered config :=
  visits.foldl afterVisit metered

/-- The arena after the same visits made directly. -/
def afterDirectly (metered : Metered config) (visits : List Visit) : Logged (Arena config) :=
  metered.logged.afterAll (visits.filterMap Visit.attempt?)

/-- If the numbers of calls stay words, so does the one of the first call. -/
theorem InRange.hasRoom {metered : Metered config} {path : Path} {use : Use} {visits : List Visit}
    (h : metered.InRange (.act path use :: visits)) :
    ∀ meter ∈ path.meters, (metered.counts meter).HasRoom use := by
  intro meter hmem
  obtain ⟨hallocs, hdeallocs⟩ := h meter
  rw [List.countP_cons] at hallocs hdeallocs
  cases use with
  | allocate size align =>
      rw [if_pos (show Visit.allocatesOn meter (.act path (.allocate size align)) = true from
        decide_eq_true hmem)] at hallocs
      show _ + 1 < _
      omega
  | deallocate addr size align =>
      rw [if_pos (show Visit.deallocatesOn meter (.act path (.deallocate addr size align)) = true
        from decide_eq_true hmem)] at hdeallocs
      show _ + 1 < _
      omega

/-- A meter counts a visit that is made through its provider. -/
theorem counts_afterVisit {metered : Metered config} {visit : Visit} {visits : List Visit}
    (h : metered.InRange (visit :: visits)) (meter : Nat) :
    (metered.afterVisit visit).counts meter =
      ⟨(metered.counts meter).allocs + if visit.allocatesOn meter then 1 else 0,
        (metered.counts meter).deallocs + if visit.deallocatesOn meter then 1 else 0⟩ := by
  cases visit with
  | ask path addr => rfl
  | act path use =>
      rw [afterVisit, Path.run_use h.hasRoom]
      show use.tallyOn path.meters metered.counts meter = _
      rw [Use.tallyOn]
      by_cases hmem : meter ∈ path.meters
      · rw [if_pos hmem]
        cases use <;> simp [Use.tally, Visit.allocatesOn, Visit.deallocatesOn, hmem]
      · rw [if_neg hmem]
        cases use <;> simp [Visit.allocatesOn, Visit.deallocatesOn, hmem]

/-- After the first visit the numbers of calls stay words in the other ones. -/
theorem InRange.afterVisit {metered : Metered config} {visit : Visit} {visits : List Visit}
    (h : metered.InRange (visit :: visits)) : (metered.afterVisit visit).InRange visits := by
  intro meter
  obtain ⟨hallocs, hdeallocs⟩ := h meter
  rw [List.countP_cons] at hallocs hdeallocs
  rw [counts_afterVisit h]
  constructor <;> dsimp only <;> omega

/-- It makes no difference to the arena on which path the first visit is made. -/
theorem afterDirectly_cons {metered : Metered config} {visit : Visit} {visits : List Visit}
    (h : metered.InRange (visit :: visits)) :
    metered.afterDirectly (visit :: visits) = (metered.afterVisit visit).afterDirectly visits := by
  cases visit with
  | act path use =>
      rw [Metered.afterVisit, Path.run_use h.hasRoom]
      rfl
  | ask path addr => rfl

/-- Visits on any paths leave the arena as the direct calls do. -/
theorem logged_afterVisits {metered : Metered config} {visits : List Visit}
    (h : metered.InRange visits) :
    (metered.afterVisits visits).logged = metered.afterDirectly visits := by
  induction visits generalizing metered with
  | nil => rfl
  | cons visit visits ih =>
      rw [afterDirectly_cons h]
      exact ih h.afterVisit

/-- A meter counts the visits that are made through its provider. -/
theorem counts_afterVisits {metered : Metered config} {visits : List Visit}
    (h : metered.InRange visits) (meter : Nat) :
    (metered.afterVisits visits).counts meter =
      ⟨(metered.counts meter).allocs + visits.countP (Visit.allocatesOn meter),
        (metered.counts meter).deallocs + visits.countP (Visit.deallocatesOn meter)⟩ := by
  induction visits generalizing metered with
  | nil => rfl
  | cons visit visits ih =>
      rw [afterVisits, List.foldl_cons, ← afterVisits, ih h.afterVisit, counts_afterVisit h,
        List.countP_cons, List.countP_cons, Counts.mk.injEq]
      constructor <;> dsimp only <;> omega

end Metered

/-- Whatever paths have been taken to an arena, all of them still agree. -/
structure PathsAgree (start : Metered config) (visits : List Visit) : Prop where
  /-- The arena and its events are those after the same visits made directly. -/
  logged_eq : (start.afterVisits visits).logged = start.afterDirectly visits
  /-- So is what a use comes to that can be counted, except that a rejection breaks it off. -/
  outcome_eq : ∀ (path : Path) (use : Use), (start.afterVisits visits).InRange [.act path use] →
    (path.use use (start.afterVisits visits)).1 =
      path.seen ((Attempt.mk .direct use).run (start.afterDirectly visits)).1
  owns_eq : ∀ (path : Path) (addr : Nat),
    path.owns (start.afterVisits visits) addr = (start.afterDirectly visits).state.owns addr
  /-- A use is broken off with the text of a rejection exactly if it is rejected directly. -/
  broken_iff : ∀ (path : Path) (lead : String), path.lead? = some lead →
    ∀ (use : Use) reason, (start.afterVisits visits).InRange [.act path use] →
      ((∃ cause, (path.use use (start.afterVisits visits)).1 = .broken cause ∧
        cause.message? = some (lead ++ reason.message)) ↔
      ((Attempt.mk .direct use).run (start.afterDirectly visits)).1 = .rejected reason)
  /-- Every meter has counted the calls through its provider, whatever came of them. -/
  counts_eq : ∀ meter, (start.afterVisits visits).counts meter =
    ⟨(start.counts meter).allocs + visits.countP (Visit.allocatesOn meter),
      (start.counts meter).deallocs + visits.countP (Visit.deallocatesOn meter)⟩
  /-- A use leaves the state of its tower as the providers in it do. -/
  tower_eq : ∀ (tower : Tower) (use : Use),
    (Layers.focus tower.layers).view
      ((Path.general tower).use use (start.afterVisits visits)).2 =
    stateOf (((Layers.provider tower.layers).act use).run
      ((Layers.focus tower.layers).view (start.afterVisits visits)))

/-- All paths to an arena agree, in whatever order they are taken, as long as the numbers of calls
on all meters stay words. -/
theorem pathsAgree {start : Metered config} {visits : List Visit} (h : start.InRange visits) :
    PathsAgree start visits where
  logged_eq := Metered.logged_afterVisits h
  outcome_eq path use hnext := by
    rw [Path.run_use hnext.hasRoom, Metered.logged_afterVisits h]
  owns_eq path addr := by
    rw [path.owns_eq, Metered.logged_afterVisits h]
  broken_iff path lead hlead use reason hnext := by
    rw [Path.run_use hnext.hasRoom, Metered.logged_afterVisits h]
    exact Path.seen_eq_broken_iff hlead (fun _ => Attempt.message?_of_broken) reason
  counts_eq := Metered.counts_afterVisits h
  tower_eq tower use := by
    rw [Path.use, settled_snd, Path.perform, stateOf_focus]
    exact Layers.view_update tower.nodup _ _

/-- A reference to a provider that counts, behind another one that counts, and the former again. -/
theorem pathsAgree_small :
    ∃ start after, (build Config.small Host.heap).run Host.fresh = .ok (.ok start) after ∧
      let metered : Metered Config.small := ⟨⟨start, []⟩, fun _ => Counts.zero⟩
      let visits := [
        .act (.general ⟨[.counted 1, .forwarded, .counted 0], by decide⟩) (.allocate 8 8),
        .act .direct (.allocate 33 8), .ask .subject start.span.addr,
        .act (.general ⟨[.counted 0], by decide⟩) (.deallocate start.span.addr 8 8)]
      metered.InRange visits ∧
      (metered.afterVisits visits).counts 0 = ⟨1, 1⟩ ∧
      (metered.afterVisits visits).counts 1 = ⟨1, 0⟩ ∧
      (Path.subject.use (.deallocate start.span.addr 8 8) (metered.afterVisits visits)).1 =
        .broken (.rejected .notAllocated) ∧
      PathsAgree metered visits := by
  obtain ⟨start, after, h⟩ := exists_build_small
  refine ⟨start, after, h, ?_⟩
  intro metered visits
  have hrange : metered.InRange visits := by
    intro meter
    have hlt : visits.length < Word.bound := show 4 < Word.bound by decide
    have hallocs : visits.countP (Visit.allocatesOn meter) ≤ visits.length :=
      List.countP_le_length
    have hdeallocs : visits.countP (Visit.deallocatesOn meter) ≤ visits.length :=
      List.countP_le_length
    show 0 + _ < _ ∧ 0 + _ < _
    omega
  have hagree : PathsAgree metered visits := pathsAgree hrange
  refine ⟨hrange, ?_, ?_, ?_, hagree⟩
  all_goals
    cases h
    decide +kernel

end BuddySystem
