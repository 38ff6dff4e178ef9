import Mathlib.Data.List.Basic
import Mathlib.Order.Lattice
import Mathlib.Order.Defs.LinearOrder

/-!
# Chains of hashes that blocks are put on

A chain lists the hashes of the blocks at the levels from zero on.  A block is
put at its level: what stood there and above is forgotten.  It fits when its
level is at most the height of the chain and its parent is the hash below it,
or the root hash at level zero.
-/

namespace SoulonWallet

/-- What a block says about its place. -/
structure HashChain.Shape (Block Hash : Type*) where
  level : Block → ℕ
  hash : Block → Hash
  parent : Block → Hash
  root : Hash

namespace HashChain

variable {Block Hash : Type*} (shape : Shape Block Hash)

/-- The hash on top of a chain. -/
def top (chain : List Hash) : Hash :=
  chain.getLast?.getD shape.root

def put (chain : List Hash) (block : Block) : List Hash :=
  chain.take (shape.level block) ++ [shape.hash block]

def putAll (chain : List Hash) (blocks : List Block) : List Hash :=
  blocks.foldl (put shape) chain

def Fits (chain : List Hash) (block : Block) : Prop :=
  shape.level block ≤ chain.length ∧
    shape.parent block = top shape (chain.take (shape.level block))

/-- Every block fits on what the blocks before it have left. -/
def FitsAll : List Hash → List Block → Prop
  | _, [] => True
  | chain, block :: rest =>
      Fits shape chain block ∧ FitsAll (put shape chain block) rest

variable {shape} {chain : List Hash} {block : Block}

theorem putAll_append (blocks later : List Block) :
    putAll shape chain (blocks ++ later) =
      putAll shape (putAll shape chain blocks) later :=
  List.foldl_append

theorem fitsAll_append {blocks later : List Block} :
    FitsAll shape chain (blocks ++ later) ↔
      FitsAll shape chain blocks ∧
        FitsAll shape (putAll shape chain blocks) later := by
  induction blocks generalizing chain with
  | nil => simp [FitsAll, putAll]
  | cons block rest ih =>
      simp only [List.cons_append, FitsAll, ih, putAll, List.foldl_cons,
        and_assoc]

/-- The top of what is left below a level. -/
theorem top_take {level : ℕ} (hlevel : level ≤ chain.length) :
    top shape (chain.take level) =
      if level = 0 then shape.root
      else chain[level - 1]?.getD shape.root := by
  unfold top
  rw [List.getLast?_take]
  split_ifs with hzero
  · rfl
  · rw [List.getElem?_eq_getElem (by omega), Option.some_or]

theorem Fits.length_put (hfits : Fits shape chain block) :
    (put shape chain block).length = shape.level block + 1 := by
  rw [put, List.length_append, List.length_take_of_le hfits.1,
    List.length_singleton]

/-- A block fits on what it leaves in place, and is put there alike. -/
theorem Fits.take (hfits : Fits shape chain block) :
    Fits shape (chain.take (shape.level block)) block ∧
      put shape (chain.take (shape.level block)) block =
        put shape chain block := by
  have htake : (chain.take (shape.level block)).take (shape.level block) =
      chain.take (shape.level block) := by
    rw [List.take_take, min_self]
  refine ⟨⟨(List.length_take_of_le hfits.1).ge, ?_⟩, ?_⟩
  · rw [htake]
    exact hfits.2
  · rw [put, htake]
    rfl

theorem getElem?_put {index : ℕ} {hash : Hash}
    (hfits : Fits shape chain block)
    (hindex : (put shape chain block)[index]? = some hash) :
    (index < shape.level block ∧ chain[index]? = some hash) ∨
      (index = shape.level block ∧ hash = shape.hash block) := by
  have hlength : (chain.take (shape.level block)).length =
      shape.level block := List.length_take_of_le hfits.1
  rw [put] at hindex
  rcases lt_or_ge index (shape.level block) with hlow | hhigh
  · rw [List.getElem?_append_left (hlow.trans_eq hlength.symm),
      List.getElem?_take_of_lt hlow] at hindex
    exact Or.inl ⟨hlow, hindex⟩
  · rw [List.getElem?_append_right (hlength.le.trans hhigh), hlength,
      List.getElem?_singleton] at hindex
    split_ifs at hindex with hzero
    exact Or.inr ⟨by omega, (Option.some.inj hindex).symm⟩

end HashChain

end SoulonWallet
