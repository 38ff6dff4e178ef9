import SoulonWallet.GeneratedLinks
import SoulonWallet.HashChain

/-!
# The generator as a chain of hashes

The hashes that the generator remembers are those of the heights from one up
to the next one, so they are a chain, and every generated event is put on it.
-/

namespace SoulonWallet.Indexer

open HashChain WrappingInt64

def Event.level (event : Event) : ℕ :=
  (event.height - 1).toNat

abbrev eventShape : HashChain.Shape Event String where
  level := Event.level
  hash := Event.blockHash
  parent := Event.parentHash
  root := ""

/-- The name of a block of a height, on one branch or the other. -/
def NamesHeight (name : String) (height : ℤ) : Prop :=
  ∃ suffix ∈ ["-a", "-b"], name = "block-" ++ toString height ++ suffix

structure Event.Generated (event : Event) : Prop where
  type : event.type = "new_block"
  height : 1 ≤ event.height
  id : event.id = event.blockHash
  named : NamesHeight event.blockHash event.height

/-- The hashes of the generator are the chain. -/
structure Generator.Holds (generator : Generator) (chain : List String) :
    Prop where
  nextHeight : generator.nextHeight.toInt = chain.length + 1
  hashes : ∀ height : Int64,
    generator.hashByHeight.lookup height =
      if 1 ≤ height.toInt then chain[(height.toInt - 1).toNat]? else none

theorem newGenerator_holds : newGenerator.Holds [] where
  nextHeight := rfl
  hashes height := by
    split_ifs
    · rfl
    · rfl

theorem newBlock_generated
    (generator : Generator) {height : Int64} (hheight : 1 ≤ height.toInt)
    {suffix : String} (hsuffix : suffix ∈ ["-a", "-b"]) (branch : String)
    (now : ℤ) : (generator.newBlock height suffix branch now).Generated where
  type := rfl
  height := hheight
  id := rfl
  named := ⟨suffix, hsuffix, rfl⟩

section Calls

variable {generator next : Generator} {chain : List String}

/-- A new block links to the hash below it. -/
theorem Generator.Holds.fits
    (hholds : generator.Holds chain) {height : Int64}
    (hpositive : 1 ≤ height.toInt)
    (hheight : height.toInt ≤ chain.length + 1)
    (suffix branch : String) (now : ℤ) :
    Fits eventShape chain (generator.newBlock height suffix branch now) := by
  have hbelow : (height - 1).toInt = height.toInt - 1 :=
    toInt_sub_of_le (by decide) hpositive
  have hlevel : eventShape.level
      (generator.newBlock height suffix branch now) =
        (height.toInt - 1).toNat := rfl
  have hlength : eventShape.level
      (generator.newBlock height suffix branch now) ≤ chain.length := by
    omega
  refine ⟨hlength, ?_⟩
  show generator.hashByHeight.get (height - 1) "" = _
  rw [KeyedMap.get, hholds.hashes, hbelow, top_take hlength, hlevel]
  by_cases hone : height.toInt = 1
  · rw [if_neg (by omega), if_pos (by omega)]
    rfl
  · have hindex : (height.toInt - 1).toNat - 1 =
        (height.toInt - 1 - 1).toNat := by
      omega
    rw [if_pos (by omega), if_neg (by omega), hindex]

/-- What has been put at a height, with nothing remembered above it. -/
theorem Generator.Holds.put
    (hholds : generator.Holds chain) {event : Event} {height : Int64}
    (hevent : event.height = height.toInt) (hpositive : 1 ≤ height.toInt)
    (hfits : Fits eventShape chain event)
    (hnext : next.nextHeight.toInt = height.toInt + 1)
    (hlookup : ∀ other : Int64, next.hashByHeight.lookup other =
      if other = height then some event.blockHash
      else if height.toInt < other.toInt then none
      else generator.hashByHeight.lookup other) :
    next.Holds (HashChain.put eventShape chain event) := by
  have hlevel : eventShape.level event = (height.toInt - 1).toNat := by
    show (event.height - 1).toNat = _
    rw [hevent]
  have hlength : (chain.take (eventShape.level event)).length =
      (height.toInt - 1).toNat := by
    rw [List.length_take_of_le hfits.1, hlevel]
  refine ⟨?_, ?_⟩
  · rw [hnext, hfits.length_put, hlevel]
    omega
  · intro other
    rw [hlookup, hholds.hashes, HashChain.put]
    by_cases hsame : other = height
    · subst hsame
      rw [if_pos rfl, if_pos hpositive, ← hlength,
        List.getElem?_concat_length]
    · have hne : height.toInt ≠ other.toInt :=
        fun heq => hsame (Int64.toInt_inj.mp heq.symm)
      rw [if_neg hsame]
      by_cases hlow : 1 ≤ other.toInt
      · rw [if_pos hlow, if_pos hlow]
        split_ifs with habove
        · rw [List.getElem?_eq_none]
          rw [List.length_append, hlength, List.length_singleton]
          omega
        · rw [List.getElem?_append_left (by omega),
            List.getElem?_take_of_lt (by omega)]
      · rw [if_neg hlow, if_neg hlow, ite_self]

/-- The event of the next height. -/
theorem Generator.Holds.extend
    (hholds : generator.Holds chain)
    (hroom : generator.nextHeight.toInt + 1 < 2 ^ 63) (now : ℤ) :
    (generator.extend now).2.Generated ∧
      Fits eventShape chain (generator.extend now).2 ∧
      (generator.extend now).1.Holds
        (HashChain.put eventShape chain (generator.extend now).2) := by
  have hheight := hholds.nextHeight
  have hpositive : 1 ≤ generator.nextHeight.toInt := by omega
  have hone : (1 : Int64).toInt = 1 := rfl
  have hfits := hholds.fits hpositive hheight.le "-a" "main" now
  refine ⟨newBlock_generated generator hpositive (by simp) _ now, hfits, ?_⟩
  refine hholds.put rfl hpositive hfits ?_ ?_
  · rw [Generator.extend, toInt_add_of_lt (by omega) (by omega), hone]
  · intro other
    rw [Generator.extend, KeyedMap.lookup_insert_eq]
    split_ifs with hsame habove
    · rfl
    · rw [hholds.hashes, if_pos (by omega), List.getElem?_eq_none (by omega)]
    · rfl

/-- The event of a reorganization, below the block generated last. -/
theorem Generator.Holds.reorganize
    {height : Int64} {now : ℤ} {event : Event}
    (hholds : generator.Holds chain)
    (hnext : generator.nextHeight.toInt = height.toInt + 1)
    (hheight : 2 < height.toInt)
    (hreorganize : generator.reorganize height now = some (next, event)) :
    event.Generated ∧ Fits eventShape chain event ∧
      next.Holds (HashChain.put eventShape chain event) := by
  obtain ⟨-, hnextHeight, rfl, hhashes⟩ := reorganize_eq_some hreorganize
  rw [Int64.sub_add_cancel] at hnextHeight
  have hone : (1 : Int64).toInt = 1 := rfl
  have hbelow : (height - 1).toInt = height.toInt - 1 :=
    toInt_sub_of_le (by decide) (by omega)
  have hchain := hholds.nextHeight
  have hfits := hholds.fits (by omega : 1 ≤ (height - 1).toInt) (by omega)
    "-b" "reorg" now
  refine ⟨newBlock_generated generator (by omega) (by simp) _ now, hfits, ?_⟩
  refine hholds.put rfl (by omega) hfits
    (by rw [hnextHeight]; omega) ?_
  intro other
  rw [hhashes, KeyedMap.lookup_erase_eq, KeyedMap.lookup_insert_eq]
  have hsame : other = height ↔ other.toInt = height.toInt :=
    Int64.toInt_inj.symm
  have hreplaced : other = height - 1 ↔ other.toInt = height.toInt - 1 := by
    rw [← hbelow, Int64.toInt_inj]
  rw [hbelow]
  simp only [hsame, hreplaced]
  rcases lt_trichotomy other.toInt (height.toInt - 1) with hlow | heq | hhigh
  · rw [if_neg (by omega), if_neg (by omega), if_neg (by omega),
      if_neg (by omega)]
  · rw [if_neg (by omega), if_pos heq, if_pos heq]
  · rw [if_neg (by omega : ¬ other.toInt = height.toInt - 1),
      if_neg (by omega : ¬ other.toInt = height.toInt - 1),
      if_pos (by omega : height.toInt - 1 < other.toInt)]
    split_ifs with htop
    · rfl
    · rw [hholds.hashes, if_pos (by omega), List.getElem?_eq_none (by omega)]

/-- The events of one call are put on the chain one after another. -/
theorem Generator.Holds.call
    {reorgInterval : Int64} {times : TickTimes} {events : List Event}
    (hholds : generator.Holds chain)
    (hroom : ¬ Generator.Reorganizes reorgInterval generator.nextHeight →
      generator.nextHeight.toInt + 1 < 2 ^ 63)
    (hcall : generator.generateTickEvents reorgInterval times =
      some (next, events)) :
    (∀ event ∈ events, event.Generated) ∧ FitsAll eventShape chain events ∧
      next.Holds (putAll eventShape chain events) := by
  by_cases hreorg : Generator.Reorganizes reorgInterval generator.nextHeight
  · obtain ⟨reorgEvent, hreorganize, rfl⟩ :=
      generateTickEvents_of_reorganizes hreorg hcall
    have hone : (1 : Int64).toInt = 1 := rfl
    have hlow := generator.nextHeight.le_toInt
    have hhigh := generator.nextHeight.toInt_lt
    have hlargest : generator.nextHeight.toInt ≠ Int64.maxValue.toInt :=
      fun heq => (reorganize_eq_some hreorganize).1 (Int64.toInt_inj.mp heq)
    have hmax : Int64.maxValue.toInt = 2 ^ 63 - 1 := rfl
    obtain ⟨hmain, hmainFits, hextended⟩ :=
      hholds.extend (by omega) times.main
    have hheight := ((reorganizes_iff _ _).mp hreorg).2.1
    have hnext : (generator.extend times.main).1.nextHeight.toInt =
        generator.nextHeight.toInt + 1 := by
      rw [Generator.extend, toInt_add_of_lt (by omega) (by omega), hone]
    obtain ⟨hgenerated, hfits, hreorganized⟩ :=
      hextended.reorganize hnext hheight hreorganize
    refine ⟨?_, ⟨hmainFits, hfits, trivial⟩, hreorganized⟩
    simpa using ⟨hmain, hgenerated⟩
  · rw [generateTickEvents_of_not_reorganizes hreorg, Option.some.injEq,
      Prod.mk.injEq] at hcall
    obtain ⟨rfl, rfl⟩ := hcall
    obtain ⟨hmain, hmainFits, hextended⟩ :=
      hholds.extend (hroom hreorg) times.main
    exact ⟨by simpa using hmain, ⟨hmainFits, trivial⟩, hextended⟩

end Calls

end SoulonWallet.Indexer
