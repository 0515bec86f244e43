import DarkEden.ScanRecords

namespace DarkEden.PointerScan

open Interaction ByteMemory

section Rule

/-- The number of the module as it is stored: a signed number in either form. -/
def storedId (h : Header) (record : PyBytes) : Int :=
  if h.compressed then (BitVec.ofNat h.indexBits (bits record h.baseBits h.indexBits)).toInt
  else (BitVec.ofNat 32 (unpackInt record 0 4)).toInt

/-- The rule by which a stored number is attributed to one of `n` modules. -/
structure Ruled (n : Nat) (k : Int) (o : Origin) : Prop where
  named : (∃ index base, o = .named index base ∧ (index : Int) = k) ↔ 0 ≤ k ∧ k < n
  bare : (∃ base, o = .bare base) ↔ k = -1
  bad : (∃ id base, o = .bad id base) ↔ k < -1 ∨ n ≤ k
  own : ∀ index base, o = .named index base → (index : Int) = k

variable {n : Nat} {k : Int}

theorem ruled_bare (base : Nat) : Ruled n (-1) (.bare base) where
  named := iff_of_false (by simp) (by omega)
  bare := iff_of_true ⟨base, rfl⟩ rfl
  bad := iff_of_false (by simp) (by omega)
  own := by simp

theorem ruled_named (base : Nat) (hlow : 0 ≤ k) (hhigh : k < n) :
    Ruled n k (.named k.toNat base) where
  named := iff_of_true ⟨_, _, rfl, Int.toNat_of_nonneg hlow⟩ ⟨hlow, hhigh⟩
  bare := iff_of_false (by simp) (by omega)
  bad := iff_of_false (by simp) (by omega)
  own index _ ho := by
    injection ho with hindex
    rw [← hindex, Int.toNat_of_nonneg hlow]

theorem ruled_bad (id : Int) (base : Nat) (h : k < -1 ∨ n ≤ k) : Ruled n k (.bad id base) where
  named := iff_of_false (by simp) (by omega)
  bare := iff_of_false (by simp) (by omega)
  bad := iff_of_true ⟨id, base, rfl⟩ h
  own := by simp

theorem not_ruled_named (index base : Nat) (h : k < 0) : ¬Ruled n k (.named index base) := by
  intro hruled
  have hown := hruled.own index base rfl
  omega

end Rule

section Yields

variable {α β : Type} {P : α → Prop} {Q : β → Prop}
variable {x : Except PyError α} {f : α → Except PyError β}

def Yields (P : α → Prop) (x : Except PyError α) : Prop :=
  x ≠ .error .indexError ∧ ∀ a, x = .ok a → P a

theorem yields_ok {a : α} : Yields P (.ok a) ↔ P a :=
  ⟨fun h => h.2 a rfl, fun h => ⟨by simp, fun b hb => by injection hb with hab; rwa [← hab]⟩⟩

theorem yields_error {e : PyError} : Yields P (.error e) ↔ e ≠ .indexError :=
  ⟨fun h he => h.1 (by rw [he]), fun h => ⟨fun he => h (by injection he), by simp⟩⟩

theorem yields_bind (hx : Yields P x) (hf : ∀ a, P a → Yields Q (f a)) : Yields Q (x >>= f) := by
  cases x with
  | error e => exact yields_error.mpr (yields_error.mp hx)
  | ok a => exact hf a (yields_ok.mp hx)

theorem yields_return {g : α → β} :
    Yields Q (do let a ← x; return g a) ↔ Yields (fun a => Q (g a)) x := by
  cases x with
  | error e => exact yields_error.trans yields_error.symm
  | ok a =>
    have hbefore : Yields (fun a => Q (g a)) (.ok a) ↔ Q (g a) := yields_ok
    exact yields_ok.trans hbefore.symm

theorem yields_mapM {R : α → β → Prop} {xs : List α} (h : ∀ a ∈ xs, Yields (R a) (f a)) :
    Yields (List.Forall₂ R xs) (xs.mapM f) := by
  induction xs with
  | nil => exact yields_ok.mpr .nil
  | cons a xs ih =>
    rw [List.mapM_cons]
    apply yields_bind (h a List.mem_cons_self)
    intro b hb
    have htail := ih fun a' ha' => h a' (List.mem_cons_of_mem a ha')
    exact yields_bind htail fun bs hbs => yields_ok.mpr (.cons hb hbs)

end Yields

section Lookup

variable {h : Header} {record : PyBytes} {k : Int}

def Attributed (h : Header) (record : PyBytes) : Prop :=
  Yields (fun r => Ruled h.modules.length (storedId h record) r.origin) (decodeRecord h record)

theorem yields_originOf_signed (base : Nat) :
    Yields (Ruled h.modules.length k) (originOf h.modules k base) ↔ -1 ≤ k := by
  rw [originOf]
  by_cases hbare : k = -1
  · rw [if_pos hbare, hbare]
    exact iff_of_true (yields_ok.mpr (ruled_bare base)) (Int.le_refl _)
  · rw [if_neg hbare]
    by_cases hhigh : k < h.modules.length
    · rw [if_pos hhigh, yields_return, pyIndex]
      by_cases hlow : 0 ≤ k
      · rw [if_pos ⟨hlow, hhigh⟩, yields_ok]
        exact iff_of_true (ruled_named base hlow hhigh) (by omega)
      · -- A negative number below -1 counts from the end of the list.
        refine iff_of_false ?_ (by omega)
        rw [if_neg (fun hin => hlow hin.1)]
        by_cases hend : k < 0 ∧ -h.modules.length ≤ k
        · rw [if_pos hend, yields_ok]
          exact not_ruled_named _ _ hend.1
        · rw [if_neg hend, yields_error]
          exact fun hne => hne rfl
    · rw [if_neg hhigh, yields_ok]
      exact iff_of_true (ruled_bad k base (by omega)) (by omega)

theorem yields_originOf_unsigned {stored : Nat} (hstored : stored < 2 ^ 32) (base : Nat) :
    let k := (BitVec.ofNat 32 stored).toInt
    Yields (Ruled h.modules.length k)
        (originOf h.modules (if stored = 0xFFFFFFFF then -1 else stored) base) ↔
      -1 ≤ k ∨ h.modules.length ≤ k + 2 ^ 32 := by
  intro k
  have hk : k = if stored < 2 ^ 31 then (stored : Int) else stored - 2 ^ 32 := by
    simp only [k]
    rw [BitVec.toInt_eq_toNat_cond, BitVec.toNat_ofNat, Nat.mod_eq_of_lt hstored]
    split <;> split <;> omega
  by_cases hsmall : -1 ≤ k
  · have hid : (if stored = 0xFFFFFFFF then -1 else stored : Int) = k := by
      split <;> split at hk <;> omega
    rw [hid, yields_originOf_signed]
    exact iff_of_true hsmall (.inl hsmall)
  · -- Read without its sign the number lies 2 ^ 32 higher.
    have hid : (if stored = 0xFFFFFFFF then -1 else stored : Int) = k + 2 ^ 32 := by
      split <;> split at hk <;> omega
    rw [hid, originOf, if_neg (by omega), or_iff_right hsmall]
    by_cases hhigh : k + 2 ^ 32 < h.modules.length
    · rw [if_pos hhigh, yields_return, pyIndex, if_pos ⟨by omega, hhigh⟩, yields_ok]
      exact iff_of_false (not_ruled_named _ _ (by omega)) (by omega)
    · rw [if_neg hhigh, yields_ok]
      exact iff_of_true (ruled_bad _ _ (by omega)) (by omega)

theorem attributed_compressed (hcompressed : h.compressed) :
    Attributed h record ↔ -1 ≤ storedId h record := by
  rw [Attributed, decodeRecord, if_pos hcompressed, decodeCompressed]
  by_cases hindex : h.indexBits = 0
  · -- The sign bit of a number without bits cannot be asked for.
    have hid : storedId h record = 0 := by
      rw [storedId, if_pos hcompressed, hindex]
      exact BitVec.toInt_of_zero_length rfl _
    rw [signedId, if_pos hindex, hid]
    exact iff_of_true (yields_error.mpr (by decide)) (by decide)
  · have hlt : bits record h.baseBits h.indexBits < 2 ^ h.indexBits := by
      rw [bits_eq]
      exact Nat.mod_lt _ (Nat.two_pow_pos _)
    have hid : storedId h record =
        (BitVec.ofNat h.indexBits (bits record h.baseBits h.indexBits)).toInt := by
      rw [storedId, if_pos hcompressed]
    rw [signedId_eq (Nat.one_le_iff_ne_zero.mpr hindex) hlt, ← hid]
    exact yields_return.trans (yields_originOf_signed _)

/-- The record ends before its last offset. -/
def Truncated (record : PyBytes) : Prop := record.length < 16 + 4 * unpackInt record 12 4

theorem attributed_uncompressed (hcompressed : ¬h.compressed) :
    Attributed h record ↔ Truncated record ∨ -1 ≤ storedId h record ∨
      h.modules.length ≤ storedId h record + 2 ^ 32 := by
  have hid : storedId h record = (BitVec.ofNat 32 (unpackInt record 0 4)).toInt := by
    rw [storedId, if_neg hcompressed]
  rw [Attributed, decodeRecord, if_neg hcompressed, decodeUncompressed]
  by_cases hshort : record.length < 16
  · rw [if_pos hshort]
    exact iff_of_true (yields_error.mpr (by decide)) (.inl (by rw [Truncated]; omega))
  rw [if_neg hshort]
  by_cases htruncated : Truncated record
  · refine iff_of_true ?_ (.inl htruncated)
    rw [Truncated] at htruncated
    simp only [if_pos htruncated]
    exact yields_error.mpr (by decide)
  rw [or_iff_right htruncated, hid]
  rw [Truncated] at htruncated
  have hstored : unpackInt record 0 4 < 2 ^ 32 := by
    have hlt := littleEndian_lt ((record.drop 0).take 4)
    have hlen : ((record.drop 0).take 4).length ≤ 4 := List.length_take_le _ _
    exact hlt.trans_le (Nat.pow_le_pow_right (by decide) hlen)
  simp only [if_neg htruncated]
  exact yields_return.trans (yields_originOf_unsigned hstored _)

end Lookup

section Files

/-- The condition on a record under which its number is attributed by the rule. -/
def Unambiguous (h : Header) (record : PyBytes) : Prop :=
  -1 ≤ storedId h record ∨
    ¬h.compressed ∧ (Truncated record ∨ h.modules.length ≤ storedId h record + 2 ^ 32)

theorem attributed_iff_unambiguous (h : Header) (record : PyBytes) :
    Attributed h record ↔ Unambiguous h record := by
  by_cases hcompressed : h.compressed
  · rw [attributed_compressed hcompressed, Unambiguous, or_iff_left fun hu => hu.1 hcompressed]
  · rw [attributed_uncompressed hcompressed, Unambiguous, and_iff_right hcompressed, or_left_comm]

theorem decodeParts_attributed {h : Header} {parts : List PyBytes}
    (hparts : ∀ raw ∈ parts, ∀ record ∈ slices h raw, Unambiguous h record) :
    Yields (List.Forall₂ (fun record r => Ruled h.modules.length (storedId h record) r.origin)
      (parts.flatMap (slices h))) (decodeParts h parts) := by
  have hpart : ∀ raw ∈ parts, Yields (List.Forall₂
      (fun record r => Ruled h.modules.length (storedId h record) r.origin) (slices h raw))
      (decodePart h raw) := by
    intro raw hraw
    rw [decodePart]
    split
    · exact yields_error.mpr (by decide)
    · exact yields_mapM fun record hrecord =>
        (attributed_iff_unambiguous h record).mpr (hparts raw hraw record hrecord)
  refine yields_bind (yields_mapM hpart) fun records hrecords => yields_ok.mpr ?_
  clear hparts hpart
  induction hrecords with
  | nil => exact .nil
  | cons hhead _ ih => exact List.rel_append hhead ih

/-- A record is attributed by the rule exactly if it is unambiguous, and so is every record of
files that have only such records. -/
theorem attributed_iff (h : Header) :
    (∀ record, Attributed h record ↔ Unambiguous h record) ∧
      ∀ parts : List PyBytes, (∀ raw ∈ parts, ∀ record ∈ slices h raw, Unambiguous h record) →
        Yields (List.Forall₂ (fun record r => Ruled h.modules.length (storedId h record) r.origin)
          (parts.flatMap (slices h))) (decodeParts h parts) :=
  ⟨attributed_iff_unambiguous h, fun _ hparts => decodeParts_attributed hparts⟩

/-- The number -2 of a damaged record names the first of two modules. -/
theorem not_attributed_twoModules :
    let record := [0x34, 0x12, 0xC0, 0, 0, 0]
    storedId twoModules record = -2 ∧
      decodeParts twoModules [record] = .ok [⟨.named 0 0x1234, [0x1C]⟩] ∧
      ¬Attributed twoModules record := by
  intro record
  have hid : storedId twoModules record = -2 := by decide
  refine ⟨hid, by decide, fun hattributed => ?_⟩
  have hle := (attributed_compressed rfl).mp hattributed
  rw [hid] at hle
  exact absurd hle (by decide)

end Files

end DarkEden.PointerScan
