import SoulonWallet.FileEventStore
import SoulonWallet.KeyedMap
import SoulonWallet.WrappingInt64

/-!
# The event generator

Every tick the worker generates the event of the next height.  At the
multiples of `reorgInterval` it also replaces the block below, and steps back
to the height above that block, which is the height that it has just
generated.  The next tick therefore generates the same height once more, with
the same reorganization: the generator never leaves the first multiple of the
interval above two.
-/

namespace SoulonWallet.Indexer

open WrappingInt64

/-- The fields of `Worker` that generate events. -/
structure Generator where
  nextHeight : Int64
  hashByHeight : KeyedMap Int64 String

def newGenerator : Generator where
  nextHeight := 1
  hashByHeight := ∅

/-- What `time.Now` answers to one call: for the main event, and for that of
the reorganization. -/
structure TickTimes where
  main : ℤ
  reorg : ℤ

def blockName (height : Int64) (branch : String) : String :=
  "block-" ++ toString height.toInt ++ branch

def branchPayload (height : Int64) (branch : String) : String :=
  "\x7b\"height\":" ++ toString height.toInt ++ ",\"branch\":\"" ++ branch ++
    "\"\x7d"

namespace Generator

def newBlock (generator : Generator) (height : Int64)
    (suffix branch : String) (now : ℤ) : Event where
  id := blockName height suffix
  height := height.toInt
  type := "new_block"
  blockHash := blockName height suffix
  parentHash := generator.hashByHeight.get (height - 1) ""
  payload := branchPayload height branch
  producedAt := now

def Reorganizes (reorgInterval height : Int64) : Prop :=
  0 < reorgInterval ∧ 2 < height ∧ height % reorgInterval = 0

instance (reorgInterval height : Int64) :
    Decidable (Reorganizes reorgInterval height) :=
  inferInstanceAs (Decidable (_ ∧ _ ∧ _))

/-- The event of the next height. -/
def extend (generator : Generator) (now : ℤ) : Generator × Event :=
  let height := generator.nextHeight
  let event := generator.newBlock height "-a" "main" now
  ({ nextHeight := height + 1
     hashByHeight := generator.hashByHeight.insert height event.blockHash },
    event)

/-- The loop that deletes the hashes above a replaced block meets `height`
alone, but past the largest height its counter wraps, and it does not end. -/
def deleteAbove (hashByHeight : KeyedMap Int64 String) (height : Int64) :
    Option (KeyedMap Int64 String) :=
  if height = Int64.maxValue then none else some (hashByHeight.erase height)

/-- The block below `height` is replaced. -/
def reorganize (generator : Generator) (height : Int64) (now : ℤ) :
    Option (Generator × Event) :=
  let reorgHeight := height - 1
  let event := generator.newBlock reorgHeight "-b" "reorg" now
  let replaced := generator.hashByHeight.insert reorgHeight event.blockHash
  (deleteAbove replaced height).map fun hashByHeight =>
    ({ nextHeight := reorgHeight + 1, hashByHeight := hashByHeight }, event)

/-- `none` when the call does not return. -/
def generateTickEvents (reorgInterval : Int64) (times : TickTimes)
    (generator : Generator) : Option (Generator × List Event) :=
  let height := generator.nextHeight
  let (extended, mainEvent) := generator.extend times.main
  if Reorganizes reorgInterval height then
    (extended.reorganize height times.reorg).map
      fun (reorganized, reorgEvent) => (reorganized, [mainEvent, reorgEvent])
  else some (extended, [mainEvent])

end Generator

/-- The generator of a fresh worker after some calls that return. -/
def generatorAfter (reorgInterval : Int64) (times : ℕ → TickTimes) :
    ℕ → Option Generator
  | 0 => some newGenerator
  | calls + 1 =>
      (generatorAfter reorgInterval times calls).bind fun generator =>
        (generator.generateTickEvents reorgInterval (times calls)).map Prod.fst

/-! ## One call -/

/-- The height that the generator does not leave: the first multiple of the
interval above two, or the largest height when nothing is reorganized. -/
def lastHeight (reorgInterval : Int64) : ℤ :=
  if reorgInterval = 0 then 2 ^ 63 - 1
  else reorgInterval.toInt * (2 / reorgInterval.toInt + 1)

section Calls

variable {reorgInterval : Int64} {generator : Generator}

theorem generateTickEvents_of_not_reorganizes
    (hplain : ¬ Generator.Reorganizes reorgInterval generator.nextHeight)
    (times : TickTimes) :
    generator.generateTickEvents reorgInterval times =
      some ((generator.extend times.main).1,
        [(generator.extend times.main).2]) := by
  simp [Generator.generateTickEvents, hplain]

/-- A call returns, unless it reorganizes at the largest height. -/
theorem generateTickEvents_isSome
    (hreturns : Generator.Reorganizes reorgInterval generator.nextHeight →
      generator.nextHeight ≠ Int64.maxValue)
    (times : TickTimes) :
    (generator.generateTickEvents reorgInterval times).isSome := by
  unfold Generator.generateTickEvents
  dsimp only
  split_ifs with hreorg
  · unfold Generator.reorganize Generator.deleteAbove
    dsimp only
    rw [if_neg (hreturns hreorg)]
    rfl
  · rfl

/-- A call that reorganizes, and returns. -/
theorem generateTickEvents_of_reorganizes
    (hreorg : Generator.Reorganizes reorgInterval generator.nextHeight)
    {times : TickTimes} {next : Generator} {events : List Event}
    (hcall : generator.generateTickEvents reorgInterval times =
      some (next, events)) :
    ∃ reorgEvent,
      (generator.extend times.main).1.reorganize generator.nextHeight
          times.reorg = some (next, reorgEvent) ∧
        events = [(generator.extend times.main).2, reorgEvent] := by
  rw [Generator.generateTickEvents] at hcall
  dsimp only at hcall
  rw [if_pos hreorg, Option.map_eq_some_iff] at hcall
  obtain ⟨⟨reorganized, reorgEvent⟩, hreorganize, hresult⟩ := hcall
  obtain ⟨rfl, rfl⟩ := Prod.mk.injEq _ _ _ _ |>.mp hresult
  exact ⟨reorgEvent, hreorganize, rfl⟩

theorem reorganize_eq_some
    {height : Int64} {now : ℤ} {next : Generator} {event : Event}
    (hreorganize : generator.reorganize height now = some (next, event)) :
    height ≠ Int64.maxValue ∧ next.nextHeight = height - 1 + 1 ∧
      event = generator.newBlock (height - 1) "-b" "reorg" now ∧
      next.hashByHeight =
        (generator.hashByHeight.insert (height - 1) event.blockHash).erase
          height := by
  rw [Generator.reorganize, Option.map_eq_some_iff] at hreorganize
  obtain ⟨hashByHeight, hdelete, hresult⟩ := hreorganize
  obtain ⟨rfl, rfl⟩ := Prod.mk.injEq _ _ _ _ |>.mp hresult
  unfold Generator.deleteAbove at hdelete
  split_ifs at hdelete with hlargest
  obtain rfl := Option.some.inj hdelete
  exact ⟨hlargest, rfl, rfl, rfl⟩

/-- A reorganization steps back to the height at which it happens. -/
theorem nextHeight_of_reorganizes
    (hreorg : Generator.Reorganizes reorgInterval generator.nextHeight)
    {times : TickTimes} {next : Generator} {events : List Event}
    (hcall : generator.generateTickEvents reorgInterval times =
      some (next, events)) :
    next.nextHeight = generator.nextHeight := by
  obtain ⟨reorgEvent, hreorganize, -⟩ :=
    generateTickEvents_of_reorganizes hreorg hcall
  rw [(reorganize_eq_some hreorganize).2.1, Int64.sub_add_cancel]

theorem reorganizes_iff (reorgInterval height : Int64) :
    Generator.Reorganizes reorgInterval height ↔
      0 < reorgInterval.toInt ∧ 2 < height.toInt ∧
        reorgInterval.toInt ∣ height.toInt := by
  unfold Generator.Reorganizes
  rw [Int64.lt_iff_toInt_lt, Int64.lt_iff_toInt_lt, ← Int64.toInt_inj,
    Int64.toInt_mod, Int.dvd_iff_tmod_eq_zero]
  rfl

theorem lastHeight_of_pos (hpositive : 0 < reorgInterval.toInt) :
    lastHeight reorgInterval =
      reorgInterval.toInt * (2 / reorgInterval.toInt + 1) := by
  have hnonzero : reorgInterval ≠ 0 := by
    rintro rfl
    exact absurd hpositive (by decide)
  rw [lastHeight, if_neg hnonzero]

theorem lastHeight_lt (hinterval : 0 ≤ reorgInterval.toInt) :
    lastHeight reorgInterval < 2 ^ 63 := by
  rcases hinterval.eq_or_lt with hzero | hpositive
  · have hnone : reorgInterval = 0 := Int64.toInt_inj.mp hzero.symm
    rw [lastHeight, if_pos hnone]
    decide
  · have hsmall := reorgInterval.toInt_lt
    rw [lastHeight_of_pos hpositive]
    generalize reorgInterval.toInt = interval at hpositive hsmall
    rcases (by omega : interval = 1 ∨ interval = 2 ∨ 2 < interval) with
      rfl | rfl | hlarge
    · decide
    · decide
    · rw [Int.ediv_eq_zero_of_lt (by decide) hlarge]
      omega

theorem reorganizes_of_eq_lastHeight
    (hpositive : 0 < reorgInterval.toInt) {height : Int64}
    (hheight : height.toInt = lastHeight reorgInterval) :
    Generator.Reorganizes reorgInterval height := by
  rw [lastHeight_of_pos hpositive] at hheight
  rw [reorganizes_iff, hheight]
  refine ⟨hpositive, ?_, dvd_mul_right _ _⟩
  have hdivide := Int.mul_ediv_add_emod 2 reorgInterval.toInt
  have hrest := Int.emod_lt_of_pos 2 hpositive
  rw [mul_add, mul_one]
  omega

theorem not_reorganizes_of_lt
    {height : Int64} (hlt : height.toInt < lastHeight reorgInterval) :
    ¬ Generator.Reorganizes reorgInterval height := by
  rw [reorganizes_iff]
  rintro ⟨hpositive, hlow, multiple, hmultiple⟩
  rw [lastHeight_of_pos hpositive, hmultiple] at hlt
  have hquotient : multiple ≤ 2 / reorgInterval.toInt :=
    Int.lt_add_one_iff.mp (lt_of_mul_lt_mul_left hlt hpositive.le)
  have hproduct := mul_le_mul_of_nonneg_left hquotient hpositive.le
  have htwo : reorgInterval.toInt * (2 / reorgInterval.toInt) ≤ 2 :=
    Int.mul_ediv_self_le hpositive.ne'
  omega

end Calls

/-! ## Every number of calls -/

section Runs

variable {reorgInterval : Int64}

theorem generateTickEvents_of_lt
    {generator : Generator} (hinterval : 0 ≤ reorgInterval.toInt)
    (hlt : generator.nextHeight.toInt < lastHeight reorgInterval)
    (times : TickTimes) :
    ∃ next events,
      generator.generateTickEvents reorgInterval times =
          some (next, events) ∧
        next.nextHeight.toInt = generator.nextHeight.toInt + 1 := by
  refine ⟨_, _,
    generateTickEvents_of_not_reorganizes (not_reorganizes_of_lt hlt) times, ?_⟩
  have hlast := lastHeight_lt hinterval
  have hlow := generator.nextHeight.le_toInt
  have hone : (1 : Int64).toInt = 1 := rfl
  rw [Generator.extend, toInt_add_of_lt (by omega) (by omega), hone]

/-- The generator climbs one height a call up to its last one. -/
theorem nextHeight_of_le
    (hinterval : 0 ≤ reorgInterval.toInt) (times : ℕ → TickTimes)
    {calls : ℕ} (hcalls : (calls : ℤ) + 1 ≤ lastHeight reorgInterval) :
    ∃ generator,
      generatorAfter reorgInterval times calls = some generator ∧
        generator.nextHeight.toInt = calls + 1 := by
  induction calls with
  | zero => exact ⟨newGenerator, rfl, rfl⟩
  | succ calls ih =>
      push_cast at hcalls ⊢
      obtain ⟨generator, hgenerator, hheight⟩ := ih (by omega)
      have hlt : generator.nextHeight.toInt < lastHeight reorgInterval := by
        omega
      obtain ⟨next, events, hcall, hnext⟩ :=
        generateTickEvents_of_lt hinterval hlt (times calls)
      refine ⟨next, ?_, by rw [hnext, hheight]⟩
      rw [generatorAfter, hgenerator, Option.bind_some, hcall]
      rfl

/-- It never climbs higher: at the last height it reorganizes for ever. -/
theorem nextHeight_le
    (hinterval : 0 ≤ reorgInterval.toInt) {times : ℕ → TickTimes}
    {calls : ℕ} {generator : Generator}
    (hgenerator :
      generatorAfter reorgInterval times calls = some generator) :
    generator.nextHeight.toInt ≤ lastHeight reorgInterval := by
  rcases hinterval.eq_or_lt with hzero | hpositive
  · have hnone : reorgInterval = 0 := Int64.toInt_inj.mp hzero.symm
    have hhigh := generator.nextHeight.toInt_lt
    rw [lastHeight, if_pos hnone]
    omega
  · induction calls generalizing generator with
    | zero =>
        obtain rfl := Option.some.inj hgenerator
        have hdivide := Int.mul_ediv_add_emod 2 reorgInterval.toInt
        have hrest := Int.emod_lt_of_pos 2 hpositive
        have hone : (1 : Int64).toInt = 1 := rfl
        rw [lastHeight_of_pos hpositive, mul_add, mul_one, newGenerator, hone]
        omega
    | succ calls ih =>
        obtain ⟨before, hbefore, hstep⟩ :=
          Option.bind_eq_some_iff.mp hgenerator
        obtain ⟨⟨next, events⟩, hcall, rfl⟩ :=
          Option.map_eq_some_iff.mp hstep
        rcases (ih hbefore).lt_or_eq with hlt | hlast
        · obtain ⟨other, otherEvents, hother, hheight⟩ :=
            generateTickEvents_of_lt hinterval hlt (times calls)
          rw [hcall, Option.some.injEq, Prod.mk.injEq] at hother
          obtain ⟨rfl, rfl⟩ := hother
          dsimp only
          omega
        · rw [nextHeight_of_reorganizes
            (reorganizes_of_eq_lastHeight hpositive hlast) hcall]
          exact ih hbefore

end Runs

/-- A height is passed exactly when it is below the last one: the largest one
without reorganizations, else the first multiple of the interval above two. -/
theorem generator_passes_iff
    {reorgInterval : Int64} (hinterval : 0 ≤ reorgInterval)
    (times : ℕ → TickTimes) (height : Int64) :
    (∃ calls generator,
      generatorAfter reorgInterval times calls = some generator ∧
        height < generator.nextHeight) ↔
      height.toInt < lastHeight reorgInterval := by
  have hnonneg : 0 ≤ reorgInterval.toInt :=
    Int64.le_iff_toInt_le.mp hinterval
  constructor
  · rintro ⟨calls, generator, hgenerator, hpassed⟩
    exact (Int64.lt_iff_toInt_lt.mp hpassed).trans_le
      (nextHeight_le hnonneg hgenerator)
  · intro hlast
    by_cases hlow : 0 ≤ height.toInt
    · obtain ⟨generator, hgenerator, hheight⟩ :=
        nextHeight_of_le hnonneg times
          (by omega : (height.toInt.toNat : ℤ) + 1 ≤ lastHeight reorgInterval)
      refine ⟨_, generator, hgenerator, Int64.lt_iff_toInt_lt.mpr ?_⟩
      omega
    · have hone : (newGenerator).nextHeight.toInt = 1 := rfl
      refine ⟨0, newGenerator, rfl, Int64.lt_iff_toInt_lt.mpr ?_⟩
      omega

def stoppedClock : ℕ → TickTimes := fun _ => { main := 0, reorg := 0 }

theorem generator_passes_two :
    ∃ calls generator,
      generatorAfter 3 stoppedClock calls = some generator ∧
        2 < generator.nextHeight :=
  (generator_passes_iff (by decide) stoppedClock 2).mpr (by decide)

/-- With a reorganization at every third height the third one is generated
for ever. -/
theorem generator_stays_at_three :
    ¬ ∃ calls generator,
      generatorAfter 3 stoppedClock calls = some generator ∧
        3 < generator.nextHeight := by
  rintro ⟨calls, generator, hgenerator, hpassed⟩
  have hlast := nextHeight_le (by decide : 0 ≤ (3 : Int64).toInt) hgenerator
  have hthree : lastHeight 3 = (3 : Int64).toInt := by decide
  rw [hthree] at hlast
  exact absurd (Int64.lt_iff_toInt_lt.mp hpassed) (by omega)

end SoulonWallet.Indexer
