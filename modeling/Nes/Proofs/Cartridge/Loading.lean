import Nes.Cartridge.Basic

/-!
# Loading cartridges

A cartridge is loaded from the bytes of an image.  Its header determines the sizes of its memories
and how addresses are decoded, and nothing of this changes while the cartridge is in use.  Every
image whose parts have the sizes that its header declares is loaded if its mapper is known.

## Main definitions

* `Cartridge.wiring`: what does not change while a cartridge is in use.
* `Header.wiring`: the wiring that a header asks for.
* `Image.filled`: an image whose program memory holds nothing but a byte.

## Main statements

* `Contents.ofBytes_eq_ok_iff`, `Contents.ofBytes_toBytes`: what is read from an image, and that an
  image is read back.
* `Cartridge.load_eq_ok_iff`, `Cartridge.load_toBytes`: what is loaded.
* `Cartridge.wiring_of_load`: a loaded cartridge is wired as its header asks for.
-/

namespace Nes

theorem except_bind_eq_ok_iff {ε α β : Type} {x : Except ε α} {f : α → Except ε β} {b : β} :
    (x >>= f) = .ok b ↔ ∃ a, x = .ok a ∧ f a = .ok b := by
  cases x with
  | ok a => exact ⟨fun h => ⟨a, rfl, h⟩, fun ⟨_, rfl, h⟩ => h⟩
  | error e =>
    constructor
    · intro h
      cases h
    · rintro ⟨_, h, -⟩
      cases h

/-! ### Contents -/

theorem ImagePart.extract_eq_ok_iff {part : ImagePart} {image bytes : Array UInt8}
    {offset length : Nat} : part.extract image offset length = .ok bytes ↔
      offset + length ≤ image.size ∧ image.extract offset (offset + length) = bytes := by
  unfold ImagePart.extract
  split
  · next h => simp [h]
  · next h => simp [h]

/-- The parts of an image stand one after the other. -/
theorem Image.extract_middle (before part rest : Array UInt8) :
    (before ++ part ++ rest).extract before.size (before.size + part.size) = part := by
  simp

namespace Image

theorem extract_magic (i : Image) : i.headerBytes.extract 0 4 = Header.magic := by
  rw [headerBytes, Array.append_assoc]
  exact extract_middle #[] Header.magic _

/-- The header is read back. -/
theorem ofBytes_headerBytes (i : Image) : Header.ofBytes i.headerBytes = i.header := by
  simp [Header.ofBytes, headerBytes, header, Header.magic, Array.getD_eq_getD_getElem?]

/-- An image whose program memory holds nothing but a byte. -/
def filled (banks byte : UInt8) : Image :=
  ⟨banks, 0, 0, 0, .replicate 8 0, #[], .replicate (banks.toNat * 0x4000) byte, #[]⟩

theorem wellSized_filled (banks byte : UInt8) : (filled banks byte).WellSized := by
  have htrainer : (Header.ofFields banks 0 0 0).trainerLength = 0 := rfl
  have hchr : (Header.ofFields banks 0 0 0).chrLength = 0 := Nat.zero_mul _
  exact ⟨htrainer.symm, Array.size_replicate, hchr.symm⟩

/-- Its mapper is the one that is known. -/
theorem mapperId_filled (banks byte : UInt8) : (filled banks byte).header.mapperId = 0 := by
  have hmapper : (Header.ofFields banks 0 0 0).mapperId = 0 := rfl
  exact hmapper

end Image

namespace Contents

/-- **What is read from an image.** -/
theorem ofBytes_eq_ok_iff {image : Array UInt8} {c : Contents} : ofBytes image = .ok c ↔
    let head := image.extract 0 Header.size
    let header := Header.ofBytes head
    let prgStart := Header.size + header.trainerLength
    let chrStart := prgStart + header.prgLength
    chrStart + header.chrLength ≤ image.size ∧ head.extract 0 4 = Header.magic ∧
      ⟨header, image.extract prgStart chrStart,
        image.extract chrStart (chrStart + header.chrLength)⟩ = c := by
  unfold ofBytes
  rw [except_bind_eq_ok_iff]
  simp only [ImagePart.extract_eq_ok_iff, Nat.zero_add]
  constructor
  · rintro ⟨head, ⟨-, rfl⟩, h⟩
    split at h
    · next hmagic =>
      simp only [except_bind_eq_ok_iff, ImagePart.extract_eq_ok_iff] at h
      obtain ⟨_, -, _, ⟨-, rfl⟩, _, ⟨hsize, rfl⟩, h⟩ := h
      cases h
      exact ⟨hsize, hmagic, rfl⟩
    · cases h
  · -- If the last part is there, all parts before it are.
    rintro ⟨hsize, hmagic, rfl⟩
    refine ⟨_, ⟨by omega, rfl⟩, ?_⟩
    rw [if_pos hmagic]
    simp only [except_bind_eq_ok_iff, ImagePart.extract_eq_ok_iff]
    exact ⟨_, ⟨by omega, rfl⟩, _, ⟨by omega, rfl⟩, _, ⟨hsize, rfl⟩, rfl⟩

/-- The parts have the sizes that the header declares. -/
theorem size_of_ofBytes {image : Array UInt8} {c : Contents} (h : ofBytes image = .ok c) :
    c.prg.size = c.header.prgLength ∧ c.chrRom.size = c.header.chrLength := by
  obtain ⟨hsize, -, rfl⟩ := ofBytes_eq_ok_iff.1 h
  simp only [Array.size_extract]
  omega

/-- **An image whose parts have the declared sizes is read back.** -/
theorem ofBytes_toBytes {i : Image} (h : i.WellSized) :
    ofBytes i.toBytes = .ok ⟨i.header, i.prg, i.chr⟩ := by
  obtain ⟨htrainer, hprg, hchr⟩ := h
  have hhead : i.toBytes.extract 0 Header.size = i.headerBytes := by
    have hmiddle := Image.extract_middle #[] i.headerBytes (i.trainer ++ i.prg ++ i.chr)
    rw [Image.size_headerBytes, Array.empty_append, Array.size_empty, Nat.zero_add] at hmiddle
    rw [← hmiddle, Image.toBytes]
    simp only [Array.append_assoc]
  have hsize := i.size_headerBytes
  rw [ofBytes_eq_ok_iff]
  dsimp only
  rw [hhead, i.ofBytes_headerBytes]
  refine ⟨?_, i.extract_magic, ?_⟩
  · rw [← htrainer, ← hprg, ← hchr, ← hsize, Image.toBytes]
    simp only [Array.size_append]
    exact Nat.le_refl _
  · have hprg' := Image.extract_middle (i.headerBytes ++ i.trainer) i.prg i.chr
    have hchr' := Image.extract_middle (i.headerBytes ++ i.trainer ++ i.prg) i.chr #[]
    rw [Array.append_empty] at hchr'
    simp only [Array.size_append, hsize, htrainer, hprg, hchr] at hprg' hchr'
    rw [Image.toBytes, hprg', hchr']

end Contents

/-! ### Wiring -/

/-- What does not change while a cartridge is in use: its header, its mapper and the sizes of its
memories. -/
def Cartridge.wiring (c : Cartridge) : Header × Mapper × Nat × Nat :=
  (c.header, c.mapper, c.prg.size, c.chr.size)

/-- The wiring that a header asks for. -/
def Header.wiring (h : Header) : Header × Mapper × Nat × Nat :=
  (h, .nrom h.prgBanks h.chrIsRam, h.prgLength, if h.chrIsRam then Header.chrBankSize else h.chrLength)

namespace Cartridge

/-- **What is loaded.** -/
theorem load_eq_ok_iff {image : Array UInt8} {cartridge : Cartridge} :
    load image = .ok cartridge ↔ ∃ c, Contents.ofBytes image = .ok c ∧ c.header.mapperId = 0 ∧
      assemble (.nrom c.header.prgBanks c.header.chrIsRam) c = cartridge := by
  unfold load
  cases hc : Contents.ofBytes image with
  | error why => simp
  | ok c =>
    simp only [ofContents, Mapper.ofHeader?, Except.ok.injEq, exists_eq_left']
    by_cases hm : c.header.mapperId = 0
    · rw [if_pos hm]
      simp [hm]
    · rw [if_neg hm]
      simp [hm]

/-- **An image whose parts have the declared sizes is loaded if its mapper is known.** -/
theorem load_toBytes {i : Image} (h : i.WellSized) (hmapper : i.header.mapperId = 0) :
    load i.toBytes = .ok
      (assemble (.nrom i.header.prgBanks i.header.chrIsRam) ⟨i.header, i.prg, i.chr⟩) :=
  load_eq_ok_iff.2 ⟨_, Contents.ofBytes_toBytes h, hmapper, rfl⟩

/-- There are images that are loaded; the smallest has no program. -/
theorem exists_load : ∃ image cartridge, load image = .ok cartridge := by
  have hsize : Image.WellSized ⟨0, 0, 0, 0, .replicate 8 0, #[], #[], #[]⟩ := by decide
  exact ⟨_, _, load_toBytes hsize rfl⟩

/-- An image whose program memory holds nothing but a byte is loaded. -/
theorem load_filled (banks byte : UInt8) : ∃ cartridge,
    load (Image.filled banks byte).toBytes = .ok cartridge ∧
      cartridge.header = .ofFields banks 0 0 0 ∧
      cartridge.prg = .replicate (banks.toNat * 0x4000) byte ∧
      cartridge.chr = .replicate Header.chrBankSize 0 :=
  ⟨_, load_toBytes (Image.wellSized_filled banks byte) (Image.mapperId_filled banks byte), rfl, rfl,
    rfl⟩

/-- The blank cartridge is that of an image with a bank of zeros. -/
theorem load_blank : load (Image.filled 1 0).toBytes = .ok blank := by
  rw [load_toBytes (Image.wellSized_filled 1 0) (Image.mapperId_filled 1 0)]
  rfl

/-- **A loaded cartridge is wired as its header asks for.** -/
theorem wiring_of_load {image : Array UInt8} {cartridge : Cartridge}
    (h : load image = .ok cartridge) : cartridge.wiring = cartridge.header.wiring := by
  obtain ⟨c, hc, -, rfl⟩ := load_eq_ok_iff.1 h
  obtain ⟨hprg, hchr⟩ := Contents.size_of_ofBytes hc
  have hchr' : (initialChr c).size =
      if c.header.chrIsRam then Header.chrBankSize else c.header.chrLength := by
    unfold initialChr
    split
    · exact Array.size_replicate
    · exact hchr
  exact Prod.ext rfl (Prod.ext rfl (Prod.ext hprg hchr'))

@[simp] theorem wiring_setPrg (c : Cartridge) (cell : Nat) (value : UInt8) :
    (c.setPrg cell value).wiring = c.wiring := by
  simp [wiring, setPrg]

@[simp] theorem wiring_setChr (c : Cartridge) (cell : Nat) (value : UInt8) :
    (c.setChr cell value).wiring = c.wiring := by
  simp [wiring, setChr]

end Cartridge

end Nes
