import SoulonWallet.EventGenerator
import SoulonWallet.LabelledRun

/-!
# Links of the generated events

The events of all calls on a fresh worker, in the order in which they are
emitted.  The map of hashes remembers the latest event of every height below
the next one, so that a new event links to the latest event of the height
below its own: both kinds of events are put on top of what is remembered, and
forget what stood above.

Without reorganizations nothing stops the next height from wrapping after
2 ^ 63 - 1 calls; with them it never gets there.
-/

namespace SoulonWallet.Indexer

open LabelledRun WrappingInt64

/-- The event that was emitted last at a height. -/
def latestAt (emitted : List Event) (height : ℤ) : Option Event :=
  emitted.reverse.find? fun event => event.height = height

/-- The hash of the latest event of the height below; none at height one. -/
def LinkedTo (emitted : List Event) (event : Event) : Prop :=
  if event.height = 1 then event.parentHash = ""
  else
    ∃ parent, latestAt emitted (event.height - 1) = some parent ∧
      event.parentHash = parent.blockHash

/-- Every event is linked to those that were emitted before it. -/
def Linked (emitted : List Event) : Prop :=
  ∀ before event after, emitted = before ++ event :: after →
    LinkedTo before event

/-- The map has the hash of the latest event for every height from one up to
the next one, and no others. -/
def Generator.Remembers (generator : Generator) (emitted : List Event) :
    Prop :=
  ∀ height : Int64,
    if 1 ≤ height.toInt ∧ height.toInt < generator.nextHeight.toInt then
      ∃ event, latestAt emitted height.toInt = some event ∧
        generator.hashByHeight.lookup height = some event.blockHash
    else generator.hashByHeight.lookup height = none

/-- The generator of a fresh worker after some calls that return, with the
events of all of them. -/
def emittedAfter (reorgInterval : Int64) (times : ℕ → TickTimes) :
    ℕ → Option (Generator × List Event)
  | 0 => some (newGenerator, [])
  | calls + 1 =>
      (emittedAfter reorgInterval times calls).bind
        fun (generator, emitted) =>
          (generator.generateTickEvents reorgInterval (times calls)).map
            fun (next, events) => (next, emitted ++ events)

/-- After every call that returns, the events are linked and remembered. -/
def LinkedThrough (reorgInterval : Int64) (times : ℕ → TickTimes)
    (calls : ℕ) : Prop :=
  ∀ done ≤ calls, ∀ generator emitted,
    emittedAfter reorgInterval times done = some (generator, emitted) →
    Linked emitted ∧ generator.Remembers emitted

/-! ## One event -/

section Events

variable {emitted : List Event} {event : Event} {generator next : Generator}

theorem latestAt_concat (height : ℤ) :
    latestAt (emitted ++ [event]) height =
      if event.height = height then some event
      else latestAt emitted height := by
  unfold latestAt
  rw [List.reverse_append, List.reverse_singleton, List.singleton_append,
    List.find?_cons]
  split_ifs with hheight
  · simp [hheight]
  · simp [hheight]

theorem Linked.concat
    (hlinked : Linked emitted) (hevent : LinkedTo emitted event) :
    Linked (emitted ++ [event]) := by
  intro before other after hsplit
  rcases concat_eq_append_cons hsplit with ⟨rfl, rfl⟩ | ⟨rest, -, hrest⟩
  · exact hevent
  · exact hlinked before other rest hrest

/-- An event of a height that is remembered, or of the next one, links to
what was emitted. -/
theorem Generator.Remembers.linkedTo
    (hremembers : generator.Remembers emitted) {height : Int64}
    (hpositive : 1 ≤ height.toInt)
    (hheight : height.toInt ≤ generator.nextHeight.toInt)
    (suffix branch : String) (now : ℤ) :
    LinkedTo emitted (generator.newBlock height suffix branch now) := by
  have hbelow : (height - 1).toInt = height.toInt - 1 :=
    toInt_sub_of_le (by decide) hpositive
  have hparent := hremembers (height - 1)
  have hblock : (generator.newBlock height suffix branch now).height =
      height.toInt := rfl
  have hlink : (generator.newBlock height suffix branch now).parentHash =
      generator.hashByHeight.get (height - 1) "" := rfl
  unfold LinkedTo
  rw [hlink, KeyedMap.get]
  by_cases hone : height.toInt = 1
  · rw [if_neg (by omega)] at hparent
    rw [if_pos (by omega), hparent]
    rfl
  · rw [if_pos (by omega), hbelow] at hparent
    obtain ⟨parent, hlatest, hlookup⟩ := hparent
    rw [if_neg (by omega), hblock, hlookup]
    exact ⟨parent, hlatest, rfl⟩

/-- An event is put on top, and what stood above is forgotten. -/
theorem Generator.Remembers.put
    (hremembers : generator.Remembers emitted) {height : Int64}
    (hevent : event.height = height.toInt)
    (hpositive : 1 ≤ height.toInt)
    (hheight : height.toInt ≤ generator.nextHeight.toInt)
    (hnext : next.nextHeight.toInt = height.toInt + 1)
    (hlookup : ∀ other : Int64, next.hashByHeight.lookup other =
      if other = height then some event.blockHash
      else if height.toInt < other.toInt then none
      else generator.hashByHeight.lookup other) :
    next.Remembers (emitted ++ [event]) := by
  intro other
  rw [latestAt_concat, hlookup, hnext, hevent]
  by_cases hsame : other = height
  · subst hsame
    rw [if_pos ⟨hpositive, by omega⟩, if_pos rfl, if_pos rfl]
    exact ⟨event, rfl, rfl⟩
  · have hne : height.toInt ≠ other.toInt :=
      fun heq => hsame (Int64.toInt_inj.mp heq.symm)
    have hkept := hremembers other
    rw [if_neg hsame, if_neg hne]
    by_cases hbelow : 1 ≤ other.toInt ∧ other.toInt < height.toInt
    · rw [if_pos (by omega), if_neg (by omega)]
      rwa [if_pos (by omega)] at hkept
    · rw [if_neg (by omega)]
      split_ifs with habove
      · rfl
      · rwa [if_neg (by omega)] at hkept

end Events

/-! ## One call -/

/-- What holds after every call. -/
structure Generator.Follows (generator : Generator) (emitted : List Event) :
    Prop where
  positive : 1 ≤ generator.nextHeight.toInt
  linked : Linked emitted
  remembers : generator.Remembers emitted

theorem newGenerator_follows : newGenerator.Follows [] := by
  have hone : newGenerator.nextHeight.toInt = 1 := rfl
  refine ⟨hone.ge, ?_, ?_⟩
  · intro before event after hsplit
    simp at hsplit
  · intro height
    rw [if_neg (by omega)]
    rfl

namespace Generator.Follows

variable {emitted : List Event} {generator : Generator}

theorem extend
    (hfollows : generator.Follows emitted)
    (hroom : generator.nextHeight.toInt + 1 < 2 ^ 63) (now : ℤ) :
    (generator.extend now).1.Follows
      (emitted ++ [(generator.extend now).2]) := by
  have hpositive := hfollows.positive
  have hone : (1 : Int64).toInt = 1 := rfl
  have hnext : (generator.extend now).1.nextHeight.toInt =
      generator.nextHeight.toInt + 1 := by
    rw [Generator.extend, toInt_add_of_lt (by omega) (by omega), hone]
  refine ⟨by omega, ?_, ?_⟩
  · exact hfollows.linked.concat
      (hfollows.remembers.linkedTo hpositive le_rfl _ _ _)
  · refine hfollows.remembers.put rfl hpositive le_rfl hnext ?_
    intro other
    rw [Generator.extend, KeyedMap.lookup_insert_eq]
    split_ifs with hsame habove
    · rfl
    · have hkept := hfollows.remembers other
      rwa [if_neg (by omega)] at hkept
    · rfl

/-- The block below the one that was just generated is put on top. -/
theorem reorganize
    {next : Generator} {event : Event} {height : Int64} {now : ℤ}
    (hfollows : generator.Follows emitted)
    (hnext : generator.nextHeight.toInt = height.toInt + 1)
    (hheight : 2 < height.toInt)
    (hreorganize : generator.reorganize height now = some (next, event)) :
    next.Follows (emitted ++ [event]) := by
  obtain ⟨-, hnextHeight, rfl, hhashes⟩ := reorganize_eq_some hreorganize
  rw [Int64.sub_add_cancel] at hnextHeight
  have hone : (1 : Int64).toInt = 1 := rfl
  have hbelow : (height - 1).toInt = height.toInt - 1 :=
    toInt_sub_of_le (by decide) (by omega)
  refine ⟨by rw [hnextHeight]; omega, ?_, ?_⟩
  · exact hfollows.linked.concat
      (hfollows.remembers.linkedTo (by omega) (by omega) _ _ _)
  · refine hfollows.remembers.put rfl (by omega) (by omega)
      (by rw [hnextHeight]; omega) ?_
    intro other
    rw [hhashes, KeyedMap.lookup_erase_eq, KeyedMap.lookup_insert_eq]
    have hsame : other = height ↔ other.toInt = height.toInt :=
      Int64.toInt_inj.symm
    have hreplaced : other = height - 1 ↔ other.toInt = height.toInt - 1 := by
      rw [← hbelow, Int64.toInt_inj]
    rw [hbelow]
    simp only [hsame, hreplaced]
    rcases lt_trichotomy other.toInt (height.toInt - 1) with hlow | heq | hhigh
    · rw [if_neg (by omega), if_neg (by omega), if_neg (by omega),
        if_neg (by omega)]
    · rw [if_neg (by omega), if_pos heq, if_pos heq]
    · rw [if_neg (by omega : ¬ other.toInt = height.toInt - 1),
        if_neg (by omega : ¬ other.toInt = height.toInt - 1),
        if_pos (by omega : height.toInt - 1 < other.toInt)]
      split_ifs with htop
      · rfl
      · have hkept := hfollows.remembers other
        rwa [if_neg (by omega)] at hkept

theorem call
    {reorgInterval : Int64} {times : TickTimes} {next : Generator}
    {events : List Event} (hfollows : generator.Follows emitted)
    (hroom : ¬ Generator.Reorganizes reorgInterval generator.nextHeight →
      generator.nextHeight.toInt + 1 < 2 ^ 63)
    (hcall : generator.generateTickEvents reorgInterval times =
      some (next, events)) :
    next.Follows (emitted ++ events) := by
  by_cases hreorg : Generator.Reorganizes reorgInterval generator.nextHeight
  · obtain ⟨reorgEvent, hreorganize, rfl⟩ :=
      generateTickEvents_of_reorganizes hreorg hcall
    have hone : (1 : Int64).toInt = 1 := rfl
    have hlow := generator.nextHeight.le_toInt
    have hhigh := generator.nextHeight.toInt_lt
    have hlargest : generator.nextHeight.toInt ≠ Int64.maxValue.toInt :=
      fun heq => (reorganize_eq_some hreorganize).1 (Int64.toInt_inj.mp heq)
    have hmax : Int64.maxValue.toInt = 2 ^ 63 - 1 := rfl
    have hextended := hfollows.extend (by omega) times.main
    have hheight := ((reorganizes_iff _ _).mp hreorg).2.1
    rw [← List.singleton_append, ← List.append_assoc]
    refine hextended.reorganize ?_ hheight hreorganize
    rw [Generator.extend, toInt_add_of_lt (by omega) (by omega), hone]
  · rw [generateTickEvents_of_not_reorganizes hreorg, Option.some.injEq,
      Prod.mk.injEq] at hcall
    obtain ⟨rfl, rfl⟩ := hcall
    exact hfollows.extend (hroom hreorg) times.main

end Generator.Follows

/-! ## Every number of calls -/

section Runs

variable {reorgInterval : Int64} {times : ℕ → TickTimes} {calls : ℕ}
variable {generator next : Generator} {emitted : List Event}

theorem emittedAfter_succ :
    emittedAfter reorgInterval times (calls + 1) = some (next, emitted) ↔
      ∃ generator before events,
        emittedAfter reorgInterval times calls = some (generator, before) ∧
          generator.generateTickEvents reorgInterval (times calls) =
            some (next, events) ∧
          emitted = before ++ events := by
  rw [emittedAfter, Option.bind_eq_some_iff]
  constructor
  · rintro ⟨⟨generator, before⟩, hbefore, hcall⟩
    obtain ⟨⟨after, events⟩, hevents, hresult⟩ :=
      Option.map_eq_some_iff.mp hcall
    obtain ⟨rfl, rfl⟩ := (Prod.mk.injEq _ _ _ _).mp hresult
    exact ⟨generator, before, events, hbefore, hevents, rfl⟩
  · rintro ⟨generator, before, events, hbefore, hcall, rfl⟩
    exact ⟨(generator, before), hbefore,
      Option.map_eq_some_iff.mpr ⟨(next, events), hcall, rfl⟩⟩

theorem generatorAfter_of_emittedAfter
    (hafter : emittedAfter reorgInterval times calls =
      some (generator, emitted)) :
    generatorAfter reorgInterval times calls = some generator := by
  induction calls generalizing generator emitted with
  | zero =>
      obtain ⟨rfl, -⟩ := (Prod.mk.injEq _ _ _ _).mp (Option.some.inj hafter)
      rfl
  | succ calls ih =>
      obtain ⟨first, before, events, hbefore, hcall, -⟩ :=
        emittedAfter_succ.mp hafter
      rw [generatorAfter, ih hbefore, Option.bind_some, hcall]
      rfl

theorem follows_of_positive
    (hpositive : 0 < reorgInterval.toInt)
    (hafter : emittedAfter reorgInterval times calls =
      some (generator, emitted)) :
    generator.Follows emitted := by
  induction calls generalizing generator emitted with
  | zero =>
      obtain ⟨rfl, rfl⟩ := (Prod.mk.injEq _ _ _ _).mp (Option.some.inj hafter)
      exact newGenerator_follows
  | succ calls ih =>
      obtain ⟨first, before, events, hbefore, hcall, rfl⟩ :=
        emittedAfter_succ.mp hafter
      refine (ih hbefore).call ?_ hcall
      intro hplain
      have hle := nextHeight_le hpositive.le
        (generatorAfter_of_emittedAfter hbefore)
      have hne : first.nextHeight.toInt ≠ lastHeight reorgInterval :=
        fun hlast => hplain (reorganizes_of_eq_lastHeight hpositive hlast)
      have hlast := lastHeight_lt hpositive.le
      omega

theorem not_reorganizes_of_nonpos
    (hinterval : reorgInterval.toInt ≤ 0) (height : Int64) :
    ¬ Generator.Reorganizes reorgInterval height := by
  rw [reorganizes_iff]
  omega

/-- Without reorganizations every call climbs, up to the largest height. -/
theorem climbs_of_nonpos
    (hinterval : reorgInterval.toInt ≤ 0) (times : ℕ → TickTimes)
    (hcalls : calls < 2 ^ 63 - 1) :
    ∃ generator emitted,
      emittedAfter reorgInterval times calls = some (generator, emitted) ∧
        generator.nextHeight.toInt = calls + 1 ∧
        generator.Follows emitted := by
  induction calls with
  | zero => exact ⟨newGenerator, [], rfl, rfl, newGenerator_follows⟩
  | succ calls ih =>
      obtain ⟨generator, emitted, hafter, hheight, hfollows⟩ :=
        ih (by omega)
      have hcall := generateTickEvents_of_not_reorganizes
        (not_reorganizes_of_nonpos hinterval generator.nextHeight)
        (times calls)
      have hone : (1 : Int64).toInt = 1 := rfl
      refine ⟨_, _, emittedAfter_succ.mpr
        ⟨generator, emitted, _, hafter, hcall, rfl⟩, ?_,
        hfollows.extend (by omega) _⟩
      rw [Generator.extend, toInt_add_of_lt (by omega) (by omega), hone,
        hheight]
      push_cast
      rfl

/-- One more call, and the next height is negative. -/
theorem not_linkedThrough_of_nonpos
    (hinterval : reorgInterval.toInt ≤ 0) (times : ℕ → TickTimes) :
    ¬ LinkedThrough reorgInterval times (2 ^ 63 - 1) := by
  intro hlinked
  obtain ⟨generator, emitted, hafter, hheight, -⟩ :=
    climbs_of_nonpos hinterval times
      (by norm_num : 2 ^ 63 - 2 < 2 ^ 63 - 1)
  have hcall := generateTickEvents_of_not_reorganizes
    (not_reorganizes_of_nonpos hinterval generator.nextHeight)
    (times (2 ^ 63 - 2))
  have hlast : emittedAfter reorgInterval times (2 ^ 63 - 2 + 1) =
      some ((generator.extend (times (2 ^ 63 - 2)).main).1,
        emitted ++ [(generator.extend (times (2 ^ 63 - 2)).main).2]) :=
    emittedAfter_succ.mpr ⟨generator, emitted, _, hafter, hcall, rfl⟩
  have hremembers :=
    (hlinked (2 ^ 63 - 2 + 1) (by norm_num) _ _ hlast).2 generator.nextHeight
  have hone : (1 : Int64).toInt = 1 := rfl
  have hwrapped : (generator.nextHeight + 1).toInt =
      generator.nextHeight.toInt + 1 - 2 ^ 64 := by
    rw [toInt_add_of_ge (by omega), hone]
  rw [Generator.extend, if_neg (by dsimp only; omega),
    AList.lookup_insert] at hremembers
  cases hremembers

theorem lastHeight_lt_of_ne
    (hpositive : 0 < reorgInterval.toInt)
    (hne : reorgInterval ≠ Int64.maxValue) :
    lastHeight reorgInterval < 2 ^ 63 - 1 := by
  have hhigh := reorgInterval.toInt_lt
  have hmax : Int64.maxValue.toInt = 2 ^ 63 - 1 := rfl
  have hlargest : reorgInterval.toInt ≠ Int64.maxValue.toInt :=
    fun heq => hne (Int64.toInt_inj.mp heq)
  rw [lastHeight_of_pos hpositive]
  generalize reorgInterval.toInt = interval at hpositive hhigh hlargest
  rcases (by omega : interval = 1 ∨ interval = 2 ∨ 2 < interval) with
    rfl | rfl | hlarge
  · decide
  · decide
  · rw [Int.ediv_eq_zero_of_lt (by decide) hlarge]
    omega

/-- Every call returns, unless the only reorganization is at the largest
height. -/
theorem emittedAfter_isSome
    (hne : reorgInterval ≠ Int64.maxValue) (times : ℕ → TickTimes)
    (calls : ℕ) :
    (emittedAfter reorgInterval times calls).isSome := by
  rw [Option.isSome_iff_exists]
  induction calls with
  | zero => exact ⟨_, rfl⟩
  | succ calls ih =>
      obtain ⟨⟨generator, emitted⟩, hafter⟩ := ih
      have hreturns :
          Generator.Reorganizes reorgInterval generator.nextHeight →
            generator.nextHeight ≠ Int64.maxValue := by
        intro hreorg hlargest
        have hpositive := ((reorganizes_iff _ _).mp hreorg).1
        have hle := nextHeight_le hpositive.le
          (generatorAfter_of_emittedAfter hafter)
        have hlast := lastHeight_lt_of_ne hpositive hne
        have hmax : Int64.maxValue.toInt = 2 ^ 63 - 1 := rfl
        rw [hlargest] at hle
        omega
      obtain ⟨⟨next, events⟩, hcall⟩ := Option.isSome_iff_exists.mp
        (generateTickEvents_isSome hreturns (times calls))
      exact ⟨_, emittedAfter_succ.mpr
        ⟨generator, emitted, events, hafter, hcall, rfl⟩⟩

end Runs

/-- The events are linked and remembered after every call, unless nothing is
reorganized and the next height has wrapped. -/
theorem generated_events_linked_iff
    (reorgInterval : Int64) (times : ℕ → TickTimes) (calls : ℕ) :
    LinkedThrough reorgInterval times calls ↔
      0 < reorgInterval ∨ calls < 2 ^ 63 - 1 := by
  rw [Int64.lt_iff_toInt_lt]
  constructor
  · intro hlinked
    by_contra hnot
    obtain ⟨hinterval, hcalls⟩ := not_or.mp hnot
    refine not_linkedThrough_of_nonpos (not_lt.mp hinterval) times ?_
    intro done hdone
    exact hlinked done (hdone.trans (not_lt.mp hcalls))
  · intro hcondition done hdone generator emitted hafter
    have hfollows : generator.Follows emitted := by
      rcases lt_or_ge 0 reorgInterval.toInt with hpositive | hinterval
      · exact follows_of_positive hpositive hafter
      · have hcalls : calls < 2 ^ 63 - 1 :=
          hcondition.resolve_left (not_lt.mpr hinterval)
        obtain ⟨other, otherEmitted, hother, -, hfollows⟩ :=
          climbs_of_nonpos hinterval times (hdone.trans_lt hcalls)
        rw [hafter, Option.some.injEq, Prod.mk.injEq] at hother
        obtain ⟨rfl, rfl⟩ := hother
        exact hfollows
    exact ⟨hfollows.linked, hfollows.remembers⟩

/-- Without reorganizations, 2 ^ 63 - 1 calls. -/
theorem generated_events_forgotten :
    ¬ LinkedThrough 0 stoppedClock (2 ^ 63 - 1) :=
  not_linkedThrough_of_nonpos (by decide) stoppedClock

end SoulonWallet.Indexer
