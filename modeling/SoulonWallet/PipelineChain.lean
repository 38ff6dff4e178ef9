import SoulonWallet.PipelineOrder
import SoulonWallet.StoredChain

/-!
# The chain that the indexer stores

A store carries the hashes that the handled events have left, the events in
flight fit on them, and while the process is open the generator holds what
they will make of the chain.  This survives failing appends, cancellations,
crashes and restarts.  Only a skipped event breaks it, since the events after
it then fit on a block that was never stored.
-/

namespace SoulonWallet.Indexer.Pipeline

open HashChain LabelledRun WrappingInt64

/-- The next height has not wrapped: it stops at the first reorganization or,
when there is none, has been raised once a step at most. -/
structure Reaches (settings : Settings) (count : ℕ) (generator : Generator) :
    Prop where
  stops : 0 < settings.reorgInterval.toInt →
    generator.nextHeight.toInt ≤ lastHeight settings.reorgInterval
  climbs : settings.reorgInterval.toInt ≤ 0 →
    generator.nextHeight.toInt ≤ count + 1

/-- The action is not the last failing attempt of an event that is then
skipped. -/
def Persists (settings : Settings) (state : Indexing) (action : Action) :
    Prop :=
  settings.options.withDefaults.persistFailurePolicy = "skip" →
    ∀ life event attempt io err, state.life = some life →
      life.persister = .upserting event attempt → action = .upsert io →
      (state.store.upsert io event).2 = .error err →
      attempt ≠ settings.options.withDefaults.persistMaxRetries

structure Life.Fits (settings : Settings) (count : ℕ) (life : Life)
    (chain : List String) : Prop where
  generated : ∀ event ∈ life.inFlight, event.Generated
  fits : FitsAll eventShape chain life.inFlight
  holds : life.Open → life.generator.Holds (putAll eventShape chain
    life.inFlight)
  reaches : Reaches settings count life.generator

structure Indexing.Chained (settings : Settings) (count : ℕ)
    (state : Indexing) : Prop where
  restartable : state.store.Restartable
  carries : ∃ chain, state.store.Carries chain ∧
    ∀ life, state.life = some life → life.Fits settings count chain

section Steps

variable {settings : Settings} {count : ℕ} {life next : Life}
variable {chain : List String}

theorem newGenerator_reaches (settings : Settings) (count : ℕ) :
    Reaches settings count newGenerator where
  stops hpositive := nextHeight_le hpositive.le
    (show generatorAfter settings.reorgInterval stoppedClock 0 = _ from rfl)
  climbs _ := by
    have hone : newGenerator.nextHeight.toInt = 1 := rfl
    omega

theorem Reaches.succ
    {generator : Generator} (hreaches : Reaches settings count generator) :
    Reaches settings (count + 1) generator where
  stops := hreaches.stops
  climbs hnone := by
    have hlow := hreaches.climbs hnone
    push_cast
    omega

/-- There are heights left above the next one. -/
theorem Reaches.room
    {generator : Generator} (hreaches : Reaches settings count generator)
    (hbound : 0 < settings.reorgInterval.toInt ∨ count + 1 < 2 ^ 63 - 1)
    (hplain : ¬ Generator.Reorganizes settings.reorgInterval
      generator.nextHeight) :
    generator.nextHeight.toInt + 1 < 2 ^ 63 := by
  by_cases hpositive : 0 < settings.reorgInterval.toInt
  · have hle := hreaches.stops hpositive
    have hne : generator.nextHeight.toInt ≠
        lastHeight settings.reorgInterval :=
      fun hlast => hplain (reorganizes_of_eq_lastHeight hpositive hlast)
    have hlast := lastHeight_lt hpositive.le
    omega
  · have hle := hreaches.climbs (by omega)
    have hcount := hbound.resolve_left hpositive
    omega

theorem Reaches.call
    {generator after : Generator} {times : TickTimes} {events : List Event}
    (hreaches : Reaches settings count generator)
    (hbound : 0 < settings.reorgInterval.toInt ∨ count + 1 < 2 ^ 63 - 1)
    (hcall : generator.generateTickEvents settings.reorgInterval times =
      some (after, events)) : Reaches settings (count + 1) after where
  stops hpositive := by
    rcases (hreaches.stops hpositive).lt_or_eq with hlt | hlast
    · obtain ⟨other, otherEvents, hother, hheight⟩ :=
        generateTickEvents_of_lt hpositive.le hlt times
      rw [hcall, Option.some.injEq, Prod.mk.injEq] at hother
      obtain ⟨rfl, -⟩ := hother
      omega
    · rw [nextHeight_of_reorganizes
        (reorganizes_of_eq_lastHeight hpositive hlast) hcall, hlast]
  climbs hnone := by
    have hplain := not_reorganizes_of_nonpos hnone generator.nextHeight
    have hroom := hreaches.room hbound hplain
    have hle := hreaches.climbs hnone
    have hlow := generator.nextHeight.le_toInt
    have hone : (1 : Int64).toInt = 1 := rfl
    rw [generateTickEvents_of_not_reorganizes hplain, Option.some.injEq,
      Prod.mk.injEq] at hcall
    obtain ⟨rfl, -⟩ := hcall
    rw [Generator.extend, toInt_add_of_lt (by omega) (by omega), hone]
    push_cast
    omega

/-- A step that does not end an event leaves the chain as it is. -/
theorem Life.Fits.moves
    (hfits : life.Fits settings count chain)
    (hbound : 0 < settings.reorgInterval.toInt ∨ count + 1 < 2 ^ 63 - 1)
    (hmoves : life.Moves settings next) :
    next.Fits settings (count + 1) chain := by
  obtain ⟨hgenerated, hline, hholds, hreaches⟩ := hfits
  cases hmoves.effect with
  | passes hgenerator _ _ hinFlight =>
      exact ⟨hinFlight ▸ hgenerated, hinFlight ▸ hline,
        fun hopen => hgenerator ▸ hinFlight ▸ hholds (hmoves.opens hopen),
        hgenerator ▸ hreaches.succ⟩
  | @generates times events hcall _ _ hopen hinFlight =>
      obtain ⟨hnew, hnewFits, hafter⟩ :=
        (hholds hopen).call (hreaches.room hbound) hcall
      rw [← putAll_append] at hafter
      refine ⟨?_, ?_, fun _ => hinFlight ▸ hafter, hreaches.call hbound hcall⟩
      · intro event hevent
        rw [hinFlight, List.mem_append] at hevent
        exact hevent.elim (hgenerated event) (hnew event)
      · rw [hinFlight]
        exact fitsAll_append.mpr ⟨hline, hnewFits⟩
  | misses hcall _ _ hreturned hinFlight =>
      exact ⟨hinFlight ▸ hgenerated, hinFlight ▸ hline,
        fun hopen => absurd hreturned (hmoves.opens hopen).1,
        hreaches.call hbound hcall⟩
  | forgets hgenerator _ _ hinFlight _ hclosed =>
      obtain ⟨forgotten, hforgotten⟩ := hinFlight
      rw [← hforgotten] at hgenerated hline
      exact ⟨fun event hevent => hgenerated event (List.mem_append_left _ hevent),
        (fitsAll_append.mp hline).1, fun hopen => absurd hopen hclosed,
        hgenerator ▸ hreaches.succ⟩

/-! ## An attempt to persist -/

theorem inFlight_of_upserting
    {event : Event} {attempt : ℤ}
    (hpersister : life.persister = .upserting event attempt) :
    life.inFlight = event :: life.incoming := by
  rw [Life.inFlight, hpersister]
  rfl

/-- The events in flight fit as well on what is below the first of them. -/
theorem Life.Fits.take
    {event : Event} {rest : List Event}
    (hfits : life.Fits settings count chain)
    (hinFlight : life.inFlight = event :: rest) :
    life.Fits settings count (chain.take (eventShape.level event)) := by
  obtain ⟨hgenerated, hline, hholds, hreaches⟩ := hfits
  refine ⟨hgenerated, ?_, ?_, hreaches⟩
  · rw [hinFlight] at hline ⊢
    obtain ⟨hbelow, hput⟩ := hline.1.take
    exact ⟨hbelow, hput ▸ hline.2⟩
  · intro hopen
    have hwhole := hholds hopen
    rw [hinFlight] at hline hwhole ⊢
    obtain ⟨-, hput⟩ := hline.1.take
    rw [putAll, List.foldl_cons] at hwhole ⊢
    rwa [hput]

/-- The first event in flight has been handled, and is on the chain. -/
theorem Life.Fits.consumed
    {event : Event} {persister : Persister} {errorTotal : Int64}
    (hfits : life.Fits settings count chain)
    (hpersister : life.persister.events = [event])
    (hdone : persister.events = []) :
    (Life.consumed { life with errorTotal } event persister).Fits settings
      (count + 1) (put eventShape chain event) := by
  have hinFlight : life.inFlight = event ::
      (Life.consumed { life with errorTotal } event persister).inFlight :=
    inFlight_of_consumed hpersister hdone
  obtain ⟨hgenerated, hline, hholds, hreaches⟩ := hfits
  rw [hinFlight] at hgenerated hline
  refine ⟨fun other hother => hgenerated other (List.mem_cons_of_mem _ hother),
    hline.2, fun hopen => ?_, hreaches.succ⟩
  have hwhole := hholds hopen
  rw [hinFlight] at hwhole
  exact hwhole

theorem Life.Fits.attempted
    {event : Event} {attempt : ℤ} {result : Except String Bool}
    (hfits : life.Fits settings count chain)
    (hbound : 0 < settings.reorgInterval.toInt ∨ count + 1 < 2 ^ 63 - 1)
    (hpersister : life.persister = .upserting event attempt)
    (hpersists : ∀ err, result = .error err →
      settings.options.withDefaults.persistFailurePolicy = "skip" →
        attempt ≠ settings.options.withDefaults.persistMaxRetries) :
    (life.attempted settings event attempt result).Fits settings (count + 1)
      (FileEventStore.chainAfter chain event result) := by
  have hevents : life.persister.events = [event] := by
    rw [hpersister]
    rfl
  cases result with
  | ok created =>
      cases created with
      | true => exact hfits.consumed hevents rfl
      | false => exact hfits.consumed hevents rfl
  | error err =>
      have hretaken := hfits.take (inFlight_of_upserting hpersister)
      apply hretaken.moves hbound
      simp only [Life.attempted]
      split_ifs with hlast hskip
      · exact absurd hlast (hpersists err rfl hskip)
      · exact moves_of_persister hevents.symm
      · exact moves_of_persister hevents.symm

/-! ## The system -/

theorem Indexing.Chained.steps
    {state after : Indexing} {action : Action}
    (hchained : state.Chained settings count)
    (hbound : 0 < settings.reorgInterval.toInt ∨ count + 1 < 2 ^ 63 - 1)
    (hpersists : Persists settings state action)
    (hsteps : state.Steps settings action after) :
    after.Chained settings (count + 1) := by
  obtain ⟨hrestartable, chain, hcarries, hlives⟩ := hchained
  cases hsteps with
  | restart hnone =>
      refine ⟨FileEventStore.newFileEventStore_restartable _, [],
        (hcarries.take 0).restart hrestartable, fun life hlife => ?_⟩
      obtain rfl := Option.some.inj hlife
      exact ⟨by simp [newLife, Life.inFlight, Life.incoming], trivial,
        fun _ => newGenerator_holds, newGenerator_reaches settings _⟩
  | crash =>
      refine ⟨hrestartable, chain, hcarries, fun life hlife => ?_⟩
      cases hlife
  | @upsert life event attempt io hlife hpersister =>
      have hfits := hlives life hlife
      have hinFlight := inFlight_of_upserting hpersister
      have hgenerated := hfits.generated event (by simp [hinFlight])
      have hfirst := hfits.fits
      rw [hinFlight] at hfirst
      refine ⟨hrestartable.upsert io event, _,
        hcarries.upsert hgenerated hfirst.1 io, fun next hnext => ?_⟩
      obtain rfl := Option.some.inj hnext
      exact hfits.attempted hbound hpersister fun err herr hskip =>
        hpersists hskip life event attempt io err hlife hpersister rfl herr
  | @moves life next action hlife hmoves =>
      refine ⟨hrestartable, chain, hcarries, fun other hother => ?_⟩
      obtain rfl := Option.some.inj hother
      exact (hlives life hlife).moves hbound hmoves

end Steps

/-! ## Runs -/

theorem Indexing.Chained.run
    {settings : Settings} {count : ℕ} {state finish : Indexing}
    {actions : List Action}
    (hchained : state.Chained settings count)
    (hbound : 0 < settings.reorgInterval.toInt ∨
      count + actions.length < 2 ^ 63 - 1)
    (hpersists : Guarded (Indexing.step settings) (Persists settings) state
      actions)
    (hrun : exec (Indexing.step settings) state actions = some finish) :
    finish.Chained settings (count + actions.length) := by
  induction actions generalizing state count with
  | nil =>
      simp only [exec_nil, Option.some.injEq] at hrun
      exact hrun ▸ hchained
  | cons action rest ih =>
      obtain ⟨next, hstep, hrest⟩ := exec_cons_eq_some.mp hrun
      rw [guarded_cons_of_step hstep] at hpersists
      rw [List.length_cons] at hbound ⊢
      have hnext := hchained.steps (hbound.imp_right (by omega))
        hpersists.1 (Indexing.steps_of_step hstep)
      have hfinish := ih hnext (hbound.imp_right (by omega)) hpersists.2 hrest
      rwa [add_right_comm, add_assoc] at hfinish

end SoulonWallet.Indexer.Pipeline
