import DarkEden.Interaction.Descent
import DarkEden.NearbyGraph
import DarkEden.PointerScan
import Mathlib.Data.BitVec

namespace DarkEden

open Interaction ByteMemory NearbyGraph
open Json (Text codes)
open PointerScan (formatX)

instance : Finite ULong := .of_equiv (Fin (2 ^ 32)) BitVec.equivFin.toEquiv.symm

theorem card_uLong : Nat.card ULong = 2 ^ 32 :=
  (Nat.card_congr BitVec.equivFin.toEquiv).trans (Nat.card_fin _)

/-- What the scripts ask of Cheat Engine, attached to a game that stands still. -/
structure CheatEngine where
  byte : Bytes 64
  readable : ULongPtr → Bool
  readString : ULongPtr → Nat → Option Text
  aobScan : Text → Option (List ULongPtr)
  getAddressSafe : Text → Option ULongPtr

namespace CheatEngine

section Reads

variable (ce : CheatEngine)

def readByte (address : ULongPtr) : Option Byte :=
  if ce.readable address then some (ce.byte address) else none

def readBytes (address : ULongPtr) (length : Nat) : Option (List Byte) :=
  if covers ce.readable address length then some (load ce.byte address length) else none

/-- The dword without its sign, as `u32` makes it. -/
def readInteger (address : ULongPtr) : Option ULong := (ce.readBytes address 4).map (valueOfBytes 32)

def readSmallInteger (address : ULongPtr) : Option (BitVec 16) :=
  (ce.readBytes address 2).map (valueOfBytes 16)

/-- `string.format("%08X", n)`. -/
def hex (n : Nat) : Text := formatX n 8

def bytesForDword (value : ULong) : Text :=
  (codes " ").intercalate ((List.range 4).map fun i => formatX (value.toNat / 256 ^ i % 256) 2)

/-- The name that is stored, after its length, behind an id. -/
def nameAt (longest : Nat) (address : ULongPtr) : Option Text := do
  let length ← ce.readByte (address + 4)
  if 2 ≤ length.toNat ∧ length.toNat ≤ longest then
    let bytes ← ce.readBytes (address + 5) length.toNat
    if bytes.length = length.toNat ∧ ∀ b ∈ bytes, 32 ≤ b.toNat ∧ b.toNat ≤ 126 then
      some (bytes.map BitVec.toNat)
    else none
  else none

def nameNear (longest : Nat) (id : ULong) : Option Text :=
  (ce.aobScan (bytesForDword id)).bind fun hits => hits.findSome? (ce.nameAt longest)

def branch (header node : ULong) (offset : ULongPtr) : List ULong :=
  (field ce.readInteger node offset).toList.filter fun child =>
    child ≠ header ∧ field ce.readInteger child 4 = some node

end Reads

section Facts

variable {ce : CheatEngine}

theorem nameAt_ne_nil {longest : Nat} {address : ULongPtr} {name : Text}
    (h : ce.nameAt longest address = some name) : name ≠ [] := by
  obtain ⟨length, -, h⟩ := Option.bind_eq_some_iff.mp h
  obtain ⟨⟨hlength, -⟩, h⟩ := Option.ite_none_right_eq_some.mp h
  obtain ⟨bytes, -, h⟩ := Option.bind_eq_some_iff.mp h
  obtain ⟨⟨hbytes, -⟩, h⟩ := Option.ite_none_right_eq_some.mp h
  obtain rfl := Option.some.inj h
  intro hnil
  rw [List.map_eq_nil_iff] at hnil
  rw [hnil, List.length_nil] at hbytes
  omega

theorem nameNear_ne_nil {longest : Nat} {id : ULong} {name : Text}
    (h : ce.nameNear longest id = some name) : name ≠ [] := by
  obtain ⟨hits, -, h⟩ := Option.bind_eq_some_iff.mp h
  obtain ⟨address, -, h⟩ := List.exists_of_findSome?_eq_some h
  exact nameAt_ne_nil h

theorem readInteger_eq_some {address : ULongPtr} {value : ULong} :
    ce.readInteger address = some value ↔
      ce.readSmallInteger address = some (value.setWidth 16) ∧
        ce.readSmallInteger (address + 2) = some ((value >>> 16).setWidth 16) := by
  have hcovers : covers ce.readable address (2 + 2) ↔
      covers ce.readable address 2 ∧ covers ce.readable (address + 2) 2 := covers_add
  have hload : load ce.byte address (2 + 2) = load ce.byte address 2 ++ load ce.byte (address + 2) 2 :=
    load_add ce.byte address 2 2
  have hlow := littleEndian_lt (load ce.byte address 2)
  have hhigh := littleEndian_lt (load ce.byte (address + 2) 2)
  rw [length_load] at hlow hhigh
  have hvalue : valueOfBytes 32 (load ce.byte address (2 + 2)) = value ↔
      valueOfBytes 16 (load ce.byte address 2) = value.setWidth 16 ∧
        valueOfBytes 16 (load ce.byte (address + 2) 2) = (value >>> 16).setWidth 16 := by
    rw [hload, valueOfBytes, valueOfBytes, valueOfBytes, littleEndian_append, length_load]
    simp only [BitVec.toNat_eq, BitVec.toNat_setWidth, BitVec.toNat_ofNat, BitVec.toNat_ushiftRight,
      Nat.shiftRight_eq_div_pow]
    have := value.isLt
    omega
  simp only [readInteger, readSmallInteger, readBytes, Option.map_eq_some_iff,
    Option.ite_none_right_eq_some, Option.some.injEq]
  constructor
  · rintro ⟨bytes, ⟨hc, rfl⟩, hv⟩
    obtain ⟨hc₁, hc₂⟩ := hcovers.mp hc
    obtain ⟨hv₁, hv₂⟩ := hvalue.mp hv
    exact ⟨⟨_, ⟨hc₁, rfl⟩, hv₁⟩, ⟨_, ⟨hc₂, rfl⟩, hv₂⟩⟩
  · rintro ⟨⟨_, ⟨hc₁, rfl⟩, hv₁⟩, ⟨_, ⟨hc₂, rfl⟩, hv₂⟩⟩
    exact ⟨_, ⟨hcovers.mpr ⟨hc₁, hc₂⟩, rfl⟩, hvalue.mpr ⟨hv₁, hv₂⟩⟩

end Facts

section Walks

open Descent

variable {ce : CheatEngine} {header root : ULong}

/-- A search that goes from a node to its two branches, and turns back at zero and the header. -/
structure Walks {σ : Type} (ce : CheatEngine) (header : ULong) (S : Search ULong σ) : Prop where
  refused : ∀ node, S.refused node ↔ node = 0 ∨ node = header
  first : ∀ node, S.first node = ce.branch header node 0
  last : ∀ node, S.last node = ce.branch header node 8

theorem branches_filter (node : ULong) :
    (ce.branch header node 0 ++ ce.branch header node 8).filter (fun c => ¬(c = 0 ∨ c = header)) =
      children ce.readInteger header node := by
  rw [children, branch, branch, ← List.filter_append, List.filter_filter]
  apply List.filter_congr
  intro child _
  simp only [IsChild, not_or, decide_eq_true_eq, Bool.and_eq_decide]
  apply decide_eq_decide.mpr
  tauto

/-- The nodes that are entered are in the tree, and all of them are, if the search is not full. -/
theorem Walks.reachable {σ : Type} {S : Search ULong σ} (hS : Walks ce header S) (hroot : root ≠ 0)
    {s s' : σ} {out : List ULong} (h : S.Runs [root] s s' out) (hs : S.seen s = []) :
    (∀ node ∈ out, Reachable ce.readInteger header root node) ∧
      (¬S.full s' → ∀ node, Reachable ce.readInteger header root node → node ∈ out) := by
  classical
  have hstart : [root].filter (fun c => ¬S.refused c) = real header [root] := by
    simp only [hS.refused, real, not_or]
  have hnext : S.next = children ce.readInteger header := by
    funext node
    rw [Search.next, hS.first, hS.last, ← branches_filter]
    simp only [hS.refused]
  constructor
  · intro node hnode
    obtain ⟨r, hr, hpath⟩ := h.reached hnode
    rw [hstart] at hr
    rw [hnext] at hpath
    exact (reachable_iff hroot).mpr ⟨r, hr, hpath⟩
  · intro hroom node hnode
    have hvisits := h.visits hroom
    rw [hstart, hnext, hs] at hvisits
    obtain ⟨r, hr, hpath⟩ := (reachable_iff hroot).mp hnode
    exact hvisits.complete hr hpath

end Walks

/-- Cheat Engine on a target where it finds no names; every expression leads to the address. -/
def ofTarget {sys : Platform} (T : Target sys) (address : ULongPtr) : CheatEngine where
  byte := T.byte
  readable := T.readable
  readString _ _ := none
  aobScan _ := none
  getAddressSafe _ := some address

end CheatEngine

end DarkEden
