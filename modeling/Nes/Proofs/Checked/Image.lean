import Nes.Proofs.Cartridge.Loading
import Nes.Proofs.Checked.Basic

/-!
# Images in fixed widths

A cartridge is loaded from any bytes.  The sizes of its parts are products of a byte and the size of
a bank, their offsets are sums of sizes, and all of them are words of at least thirty-two bits.  The
header is taken apart by index.  A part that is absent is not read, and its size is not computed.

## Main definitions

* `Checked.Reading`: what reading an image gives: a value, a fault of the image or a trap.
* `Checked.contents`, `Checked.load`: reading what an image holds, and loading its cartridge.

## Main statements

* `Checked.contents_eq`, `Checked.load_eq`: no bytes trap the reader.
-/

namespace Nes

namespace Checked

/-! ### Reading -/

/-- Reading an image ends with a value, with a fault of the image or with a trap. -/
abbrev Reading := ExceptT Malformation Checked

variable {α γ : Type}

/-- A value or a fault that no trap stands in the way of. -/
def found (x : Except Malformation α) : Reading α := ExceptT.mk (.ok x)

/-- A step without fault. -/
def compute (x : Checked α) : Reading α := ExceptT.lift x

/-- What follows a part of an image has to be shown safe only if the part is there. -/
theorem found_bind_eq {x : Except Malformation α} {f : α → Reading γ}
    {g : α → Except Malformation γ} (h : ∀ a, x = .ok a → f a = found (g a)) :
    found x >>= f = found (x >>= g) := by
  cases x with
  | ok a => exact h a rfl
  | error why => rfl

theorem compute_ok_bind (a : α) (f : α → Reading γ) : compute (.ok a) >>= f = f a := rfl

/-! ### Parts -/

/-- The part of `length` bytes at an offset. -/
def take (part : ImagePart) (image : Array UInt8) (offset length : Nat) :
    Reading (Array UInt8) := do
  let stop ← compute (unsigned 32 (offset + length))
  if stop ≤ image.size then pure (image.extract offset stop)
  else throw (.truncated part length (image.size - offset))

/-- The first bytes of a sequence. -/
def first (bytes : Array UInt8) (length : Nat) : Checked (Array UInt8) := do
  let stop ← index (bytes.size + 1) length
  pure (bytes.extract 0 stop)

/-- The byte at a place. -/
def byteAt (bytes : Array UInt8) (place : Nat) : Checked UInt8 := do
  let place ← index bytes.size place
  pure bytes[place]

/-- What the first sixteen bytes of an image tell. -/
def headerOf (head : Array UInt8) : Checked Header := do
  let prgBanks ← byteAt head 4
  let chrBanks ← byteAt head 5
  let flags6 ← byteAt head 6
  let flags7 ← byteAt head 7
  pure (.ofFields prgBanks chrBanks flags6 flags7)

theorem take_eq (part : ImagePart) (image : Array UInt8) {offset length : Nat}
    (h : offset + length < 2 ^ 32) :
    take part image offset length = found (part.extract image offset length) := by
  unfold take ImagePart.extract
  rw [unsigned_eq h, compute_ok_bind]
  split <;> rfl

theorem first_eq {bytes : Array UInt8} {length : Nat} (h : length ≤ bytes.size) :
    first bytes length = .ok (bytes.extract 0 length) := by
  rw [first, index_eq (Nat.lt_succ_of_le h)]
  rfl

theorem byteAt_eq {bytes : Array UInt8} {place : Nat} (h : place < bytes.size) :
    byteAt bytes place = .ok (bytes.getD place 0) := by
  rw [byteAt, index_eq h, Array.getD_eq_getD_getElem?, Array.getElem?_eq_getElem h]
  rfl

theorem headerOf_eq {head : Array UInt8} (h : head.size = Header.size) :
    headerOf head = .ok (Header.ofBytes head) := by
  have hplace : ∀ {place}, place < 8 → place < head.size := by
    intro place hplace
    rw [h]
    exact Nat.lt_trans hplace (by decide)
  rw [headerOf, byteAt_eq (hplace (by decide)), byteAt_eq (hplace (by decide)),
    byteAt_eq (hplace (by decide)), byteAt_eq (hplace (by decide))]
  rfl

/-! ### Images -/

/-- The trainer is read if there is one; where the program memory begins. -/
def skipTrainer (image : Array UInt8) (header : Header) : Reading Nat :=
  if header.hasTrainer then do
    let _ ← take .trainer image Header.size Header.trainerSize
    compute (unsigned 32 (Header.size + Header.trainerSize))
  else pure Header.size

/-- The picture ROM at an offset, if the image brings one. -/
def takeChrRom (image : Array UInt8) (header : Header) (offset : Nat) : Reading (Array UInt8) :=
  if header.chrIsRam then pure #[]
  else do
    let length ← compute (unsigned 32 (header.chrBanks.toNat * Header.chrBankSize))
    take .chrRom image offset length

/-- What an image holds. -/
def contents (image : Array UInt8) : Reading Contents := do
  let head ← take .header image 0 Header.size
  let magic ← compute (first head 4)
  if magic = Header.magic then
    let header ← compute (headerOf head)
    let prgStart ← skipTrainer image header
    let prgLength ← compute (unsigned 32 (header.prgBanks.toNat * Header.prgBankSize))
    let prg ← take .prgRom image prgStart prgLength
    let chrStart ← compute (unsigned 32 (prgStart + prgLength))
    let chrRom ← takeChrRom image header chrStart
    pure ⟨header, prg, chrRom⟩
  else
    throw .badMagic

/-- The cartridge of an image, or the first reason why there is none. -/
def load (image : Array UInt8) : Checked (Except LoadError Cartridge) := do
  match ← (contents image).run with
  | .ok contents => pure (Cartridge.ofContents contents)
  | .error why => pure (.error (.malformed why))

theorem skipTrainer_bind_eq {image : Array UInt8} {header : Header}
    (h : Header.size ≤ image.size) {f : Nat → Reading γ} {g : Except Malformation γ}
    (hrest : f (Header.size + header.trainerLength) = found g) :
    skipTrainer image header >>= f =
      found (ImagePart.trainer.extract image Header.size header.trainerLength >>= fun _ => g) := by
  unfold Header.trainerLength at hrest ⊢
  unfold skipTrainer
  -- Without a trainer the model reads an empty part, which is there in every image.
  split
  · next htrainer =>
    rw [if_pos htrainer] at hrest
    rw [bind_assoc, take_eq _ _ (by decide)]
    refine found_bind_eq fun _ _ => ?_
    rw [unsigned_eq (by decide), compute_ok_bind]
    exact hrest
  · next hnone =>
    rw [if_neg hnone] at hrest
    rw [ImagePart.extract, if_pos (by exact h)]
    exact hrest

theorem takeChrRom_eq {image : Array UInt8} (header : Header) {offset : Nat}
    (h : offset ≤ image.size) (hoffset : offset < 2 ^ 24) :
    takeChrRom image header offset =
      found (ImagePart.chrRom.extract image offset header.chrLength) := by
  have hbanks := header.chrBanks.toNat_lt
  unfold takeChrRom Header.chrLength Header.chrIsRam Header.chrBankSize
  split
  · next hram =>
    -- No banks are no bytes, so nothing is read there either.
    have hzero : header.chrBanks = 0 := beq_iff_eq.1 hram
    have hnone : image.extract offset (offset + (0 : UInt8).toNat * 0x2000) = #[] :=
      Array.extract_empty_of_stop_le_start (Nat.le_refl offset)
    rw [hzero, ImagePart.extract, if_pos (by exact h), hnone]
    rfl
  · rw [unsigned_eq (by omega), compute_ok_bind, take_eq _ _ (by omega)]

/-- **No bytes trap the reader of images.** -/
theorem contents_eq (image : Array UInt8) : contents image = found (Contents.ofBytes image) := by
  unfold contents Contents.ofBytes
  rw [take_eq _ _ (by decide)]
  refine found_bind_eq fun head hhead => ?_
  -- The header is there from here on, and so are its fields.
  obtain ⟨hsize, hhead⟩ := ImagePart.extract_eq_ok_iff.1 hhead
  have hlength : head.size = Header.size := by
    rw [← hhead, Array.size_extract]
    omega
  rw [first_eq (hlength ▸ by decide), compute_ok_bind]
  split
  · rw [headerOf_eq hlength, compute_ok_bind]
    generalize Header.ofBytes head = header
    -- All lengths come from bytes of the header, so their sums stay far below the bound.
    have hbanks := header.prgBanks.toNat_lt
    have htrainer : header.trainerLength ≤ 512 := by
      unfold Header.trainerLength
      split <;> decide
    have hprg : header.prgLength < 0x400000 := by
      unfold Header.prgLength Header.prgBankSize
      omega
    refine skipTrainer_bind_eq (by omega) ?_
    have hbank : Header.size = 16 := rfl
    have hproduct : header.prgBanks.toNat * Header.prgBankSize = header.prgLength := rfl
    rw [hproduct, unsigned_eq (by omega), compute_ok_bind, take_eq _ _ (by omega)]
    refine found_bind_eq fun prg hprg => ?_
    obtain ⟨hfits, -⟩ := ImagePart.extract_eq_ok_iff.1 hprg
    rw [unsigned_eq (by omega), compute_ok_bind, takeChrRom_eq header hfits (by omega)]
    exact found_bind_eq fun _ _ => rfl
  · rfl

/-- **No bytes trap the loader.** -/
theorem load_eq (image : Array UInt8) : load image = .ok (Cartridge.load image) := by
  unfold load Cartridge.load
  rw [contents_eq]
  show (match Contents.ofBytes image with
    | .ok contents => _
    | .error why => _) = _
  cases Contents.ofBytes image <;> rfl

end Checked

end Nes
