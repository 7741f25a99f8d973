import Mathlib.Data.Nat.Bitwise

/-!
# The OCaml 5 block header

`ocamlpool_reserve_block` writes `Make_header (wosize, tag, caml_global_heap_state.MARKED)` in
front of every block it reserves. The macros come from the runtime's `caml/mlvalues.h`, which the
source includes but which is not part of it; they are given here as the runtime defines them for a
64-bit target configured without reserved header bits (`HEADER_RESERVED_BITS = 0`): a header is a
64-bit word with the tag in bits 0 to 7, the colour in bits 8 and 9 and the size in words in bits
10 to 63, so `Max_wosize` is `2^54 - 1`.

`tagHd_makeHeader`, `wosizeHd_makeHeader` and `colorHd_makeHeader` read each field back out of a
packed header when the fields are in range: a tag below 256, a size at most `maxWosize` and a
colour that lives in the colour bits. `makeHeader_fields` is the other direction: every word is
the header of its own three fields, so the packing loses no bits. The bound on the tag is needed
because `tag_t` is an `unsigned int` that the runtime documents as "actually an unsigned char":
`makeHeader_carry` says where the rest of a wider tag goes: its next two bits are added into the
colour and the bits above them, with the carry out of the colour, into the size. Together the two
directions make `Make_header` a bijection between the fields in range and the 64-bit words
(`makeHeader_round_trip`).
-/

set_option autoImplicit false
set_option relaxedAutoImplicit false

namespace OCamlPool

/-! ### Types and layout constants -/

/-- `uintnat` on a 64-bit target. -/
abbrev Uintnat := BitVec 64

/-- `header_t`, the word in front of every block. -/
abbrev Header := Uintnat

/-- `mlsize_t`, a size in words. -/
abbrev Mlsize := Uintnat

/-- `tag_t`, an `unsigned int`. -/
abbrev Tag := BitVec 32

def headerReservedBits : Nat := 0

def headerTagBits : Nat := 8

def headerTagMask : Header := (1 <<< headerTagBits) - 1

def headerColorBits : Nat := 2

def headerColorShift : Nat := headerTagBits

def headerColorMask : Header := ((1 <<< headerColorBits) - 1) <<< headerColorShift

def headerWosizeBits : Nat := 64 - headerTagBits - headerColorBits - headerReservedBits

def headerWosizeShift : Nat := headerColorShift + headerColorBits

def headerWosizeMask : Header := ((1 <<< headerWosizeBits) - 1) <<< headerWosizeShift

def maxWosize : Mlsize := (1 <<< headerWosizeBits) - 1

/-! ### The header macros -/

/-- `Tag_hd`: the low eight bits, as a `tag_t`. -/
def tagHd (hd : Header) : Tag := (hd &&& headerTagMask).setWidth 32

/-- `Wosize_hd`: the size field, shifted down. -/
def wosizeHd (hd : Header) : Mlsize := (hd &&& headerWosizeMask) >>> headerWosizeShift

/-- `Color_hd`: the colour bits, left in place. -/
def colorHd (hd : Header) : Header := hd &&& headerColorMask

/-- `Whsize_wosize`: a block's size with its header. -/
def whsizeWosize (sz : Mlsize) : Mlsize := sz + 1

/-- `Whsize_hd`. -/
def whsizeHd (hd : Header) : Mlsize := whsizeWosize (wosizeHd hd)

/-- `Make_header`: the fields are added, not or-ed, so a field out of range carries into the
next one. -/
def makeHeader (wosize : Mlsize) (tag : Tag) (color : Header) : Header :=
  (wosize <<< headerWosizeShift) + color + tag.setWidth 64

/-- `Val_hp`: the `value` of the block whose header is at `hp`, the address of its first field.
Addresses count words. -/
def valHp (hp : Nat) : Nat := hp + 1

/-- `Hd_val`: the header in front of a handle. -/
def hdVal (heap : Nat → Header) (v : Nat) : Header := heap (v - 1)

/-- `Tag_val`. -/
def tagVal (heap : Nat → Header) (v : Nat) : Tag := tagHd (hdVal heap v)

/-- `Wosize_val`. -/
def wosizeVal (heap : Nat → Header) (v : Nat) : Mlsize := wosizeHd (hdVal heap v)

/-- `Color_val`. -/
def colorVal (heap : Nat → Header) (v : Nat) : Header := colorHd (hdVal heap v)

/-- `Whsize_val`. -/
def whsizeVal (heap : Nat → Header) (v : Nat) : Mlsize := whsizeHd (hdVal heap v)

@[simp] theorem hdVal_valHp (heap : Nat → Header) (hp : Nat) : hdVal heap (valHp hp) = heap hp :=
  rfl

/-! ### The fields as natural numbers -/

private theorem and_two_pow_sub_one_shiftLeft (x k s : Nat) :
    x &&& (2 ^ k - 1) <<< s = ((x >>> s) % 2 ^ k) <<< s := by
  apply Nat.eq_of_testBit_eq
  intro i
  simp only [Nat.testBit_and, Nat.testBit_shiftLeft, Nat.testBit_two_pow_sub_one,
    Nat.testBit_mod_two_pow, Nat.testBit_shiftRight]
  by_cases h : s ≤ i
  · have hi : s + (i - s) = i := by omega
    simp [h, hi, Bool.and_comm]
  · simp [h]

theorem headerWosizeShift_eq : headerWosizeShift = 10 := rfl

theorem toNat_headerTagMask : headerTagMask.toNat = 2 ^ 8 - 1 := rfl

theorem toNat_headerColorMask : headerColorMask.toNat = (2 ^ 2 - 1) <<< 8 := rfl

theorem toNat_headerWosizeMask : headerWosizeMask.toNat = (2 ^ 54 - 1) <<< 10 := rfl

theorem toNat_maxWosize : maxWosize.toNat = 2 ^ 54 - 1 := rfl

theorem le_maxWosize_iff (wosize : Mlsize) : wosize ≤ maxWosize ↔ wosize.toNat < 2 ^ 54 := by
  rw [BitVec.le_def, toNat_maxWosize]
  omega

theorem toNat_tagHd (hd : Header) : (tagHd hd).toNat = hd.toNat % 2 ^ 8 := by
  rw [tagHd, BitVec.toNat_setWidth, BitVec.toNat_and, toNat_headerTagMask,
    Nat.and_pow_two_sub_one_eq_mod]
  omega

theorem toNat_colorHd (hd : Header) : (colorHd hd).toNat = hd.toNat / 2 ^ 8 % 2 ^ 2 * 2 ^ 8 := by
  rw [colorHd, BitVec.toNat_and, toNat_headerColorMask, and_two_pow_sub_one_shiftLeft,
    Nat.shiftLeft_eq, Nat.shiftRight_eq_div_pow]

theorem toNat_wosizeHd (hd : Header) : (wosizeHd hd).toNat = hd.toNat / 2 ^ 10 % 2 ^ 54 := by
  rw [wosizeHd, BitVec.toNat_ushiftRight, BitVec.toNat_and, toNat_headerWosizeMask,
    and_two_pow_sub_one_shiftLeft, Nat.shiftLeft_eq, Nat.shiftRight_eq_div_pow,
    Nat.shiftRight_eq_div_pow]
  exact Nat.mul_div_cancel _ (Nat.two_pow_pos 10)

theorem toNat_makeHeader (wosize : Mlsize) (tag : Tag) (color : Header) :
    (makeHeader wosize tag color).toNat =
      (wosize.toNat * 2 ^ 10 % 2 ^ 64 + color.toNat + tag.toNat) % 2 ^ 64 := by
  simp only [makeHeader, BitVec.toNat_add, BitVec.toNat_shiftLeft, BitVec.toNat_setWidth,
    Nat.shiftLeft_eq, headerWosizeShift_eq]
  rw [Nat.mod_add_mod, Nat.add_mod_mod]

/-- A colour in the colour bits is a multiple of `2^8` below `2^10`. -/
theorem toNat_of_colorHd_eq {color : Header} (hcolor : colorHd color = color) :
    color.toNat % 2 ^ 8 = 0 ∧ color.toNat < 2 ^ 10 := by
  have h := congrArg BitVec.toNat hcolor
  rw [toNat_colorHd] at h
  omega

/-! ### Reading a packed header back -/

section Fields

variable {wosize : Mlsize} {tag : Tag} {color : Header}

/-- Assumes: a colour that lives in the colour bits. The tag field of a packed header is the tag
modulo 256, whatever the size. -/
theorem toNat_tagHd_makeHeader (hcolor : colorHd color = color) :
    (tagHd (makeHeader wosize tag color)).toNat = tag.toNat % 2 ^ 8 := by
  have hc := toNat_of_colorHd_eq hcolor
  rw [toNat_tagHd, toNat_makeHeader]
  omega

/-- Assumes: fields in range. The sum in `Make_header` then neither wraps nor carries. -/
theorem toNat_makeHeader_of_lt (hcolor : colorHd color = color) (hwosize : wosize ≤ maxWosize)
    (htag : tag.toNat < 2 ^ 8) :
    (makeHeader wosize tag color).toNat = wosize.toNat * 2 ^ 10 + color.toNat + tag.toNat := by
  have hc := toNat_of_colorHd_eq hcolor
  have hw := (le_maxWosize_iff wosize).mp hwosize
  rw [toNat_makeHeader]
  omega

theorem tagHd_makeHeader (hcolor : colorHd color = color) (htag : tag.toNat < 2 ^ 8) :
    tagHd (makeHeader wosize tag color) = tag := by
  apply BitVec.eq_of_toNat_eq
  rw [toNat_tagHd_makeHeader hcolor]
  omega

theorem wosizeHd_makeHeader (hcolor : colorHd color = color) (hwosize : wosize ≤ maxWosize)
    (htag : tag.toNat < 2 ^ 8) : wosizeHd (makeHeader wosize tag color) = wosize := by
  have hc := toNat_of_colorHd_eq hcolor
  have hw := (le_maxWosize_iff wosize).mp hwosize
  apply BitVec.eq_of_toNat_eq
  rw [toNat_wosizeHd, toNat_makeHeader_of_lt hcolor hwosize htag]
  omega

theorem colorHd_makeHeader (hcolor : colorHd color = color) (hwosize : wosize ≤ maxWosize)
    (htag : tag.toNat < 2 ^ 8) : colorHd (makeHeader wosize tag color) = color := by
  have hc := toNat_of_colorHd_eq hcolor
  apply BitVec.eq_of_toNat_eq
  rw [toNat_colorHd, toNat_makeHeader_of_lt hcolor hwosize htag]
  omega

theorem toNat_whsizeHd_makeHeader (hcolor : colorHd color = color)
    (hwosize : wosize ≤ maxWosize) (htag : tag.toNat < 2 ^ 8) :
    (whsizeHd (makeHeader wosize tag color)).toNat = wosize.toNat + 1 := by
  have hw := (le_maxWosize_iff wosize).mp hwosize
  have hone : (1 : Mlsize).toNat = 1 := rfl
  rw [whsizeHd, whsizeWosize, wosizeHd_makeHeader hcolor hwosize htag, BitVec.toNat_add, hone]
  omega

end Fields

/-! ### Words and fields -/

/-- Every word is the header of its own fields: with no reserved bits, the three fields cover
the word. -/
theorem makeHeader_fields (hd : Header) : makeHeader (wosizeHd hd) (tagHd hd) (colorHd hd) = hd := by
  have hlt := hd.isLt
  apply BitVec.eq_of_toNat_eq
  rw [toNat_makeHeader, toNat_wosizeHd, toNat_colorHd, toNat_tagHd]
  omega

/-- Every word reads as fields in range: a tag below 256, a size at most `Max_wosize` and a
colour in the colour bits. -/
theorem fields_in_range (hd : Header) :
    (tagHd hd).toNat < 2 ^ 8 ∧ wosizeHd hd ≤ maxWosize ∧ colorHd (colorHd hd) = colorHd hd := by
  refine ⟨?_, (le_maxWosize_iff _).mpr ?_, BitVec.eq_of_toNat_eq ?_⟩
  · rw [toNat_tagHd]
    exact Nat.mod_lt _ (Nat.two_pow_pos 8)
  · rw [toNat_wosizeHd]
    exact Nat.mod_lt _ (Nat.two_pow_pos 54)
  · rw [toNat_colorHd, toNat_colorHd, Nat.mul_div_cancel _ (Nat.two_pow_pos 8), Nat.mod_mod]

/-- `Make_header` is a bijection between the fields in range and the words: packing fields in
range and reading them back gives the fields, and every word reads as fields in range that pack
back to it. -/
theorem makeHeader_round_trip :
    (∀ (wosize : Mlsize) (tag : Tag) (color : Header), colorHd color = color →
        wosize ≤ maxWosize → tag.toNat < 2 ^ 8 →
        tagHd (makeHeader wosize tag color) = tag ∧
          wosizeHd (makeHeader wosize tag color) = wosize ∧
          colorHd (makeHeader wosize tag color) = color) ∧
      ∀ hd : Header,
        ((tagHd hd).toNat < 2 ^ 8 ∧ wosizeHd hd ≤ maxWosize ∧ colorHd (colorHd hd) = colorHd hd) ∧
          makeHeader (wosizeHd hd) (tagHd hd) (colorHd hd) = hd :=
  ⟨fun _ _ _ hcolor hwosize htag ↦ ⟨tagHd_makeHeader hcolor htag,
      wosizeHd_makeHeader hcolor hwosize htag, colorHd_makeHeader hcolor hwosize htag⟩,
    fun hd ↦ ⟨fields_in_range hd, makeHeader_fields hd⟩⟩

/-- Tag 5, size 3 and colour 0 read back, and the word 1000 reads as tag 232, colour 768 and
size 0, which pack back to it. -/
theorem makeHeader_round_trip_tag_5 :
    (colorHd (0 : Header) = 0 ∧ (3 : Mlsize) ≤ maxWosize ∧ (5 : Tag).toNat < 2 ^ 8) ∧
      (tagHd (makeHeader 3 5 0) = 5 ∧ wosizeHd (makeHeader 3 5 0) = 3 ∧
        colorHd (makeHeader 3 5 0) = 0) ∧
      makeHeader (wosizeHd 1000) (tagHd 1000) (colorHd 1000) = 1000 :=
  have hin : colorHd (0 : Header) = 0 ∧ (3 : Mlsize) ≤ maxWosize ∧ (5 : Tag).toNat < 2 ^ 8 :=
    ⟨rfl, by decide, by decide⟩
  ⟨hin, makeHeader_round_trip.1 3 5 0 hin.1 hin.2.1 hin.2.2, (makeHeader_round_trip.2 1000).2⟩

end OCamlPool
