import Nes.Proofs.Bits
import Nes.Proofs.Cartridge.Loading

/-!
# The format of images

Loading accepts the images whose parts are all there and whose mapper is known, and of all other
bytes it reports the first fault.  Faults are found in the order in which the parts stand in the
image: the header, its first four bytes, the trainer, the program memory, the picture ROM and last
the mapper, although the mapper is named in the header.

Here this is said in terms of the bytes themselves.  The sizes are numbers of bytes, and what the
header tells is read off its bytes four to seven.

## Main definitions

* `ImageBytes.trainerSize`, `ImageBytes.prgSize`, `ImageBytes.chrSize`, `ImageBytes.mapperId`: what
  the header says.
* `ImageBytes.fault?`: the first fault of an image.
* `ImageBytes.cartridge`: the cartridge that the bytes of an image describe.
* `ImageBytes.Alike`: images that differ in ignored bytes only.

## Main statements

* `Contents.ofBytes_eq`: the faults of an image, in order.
* `Contents.ofBytes_append`: bytes after the last part are ignored.
* `Cartridge.load_format`: what loading any bytes gives, which bytes have no influence on it, and
  that an image which is laid out is loaded again.
-/

namespace Nes

/-! ### The faults in order -/

/-- Reading a part goes on with its bytes unless it is cut short. -/
theorem ImagePart.extract_bind {α : Type} (part : ImagePart) (image : Array UInt8)
    (offset length : Nat) (f : Array UInt8 → Except Malformation α) :
    (part.extract image offset length >>= f) =
      if image.size < offset + length then .error (.truncated part length (image.size - offset))
      else f (image.extract offset (offset + length)) := by
  unfold ImagePart.extract
  by_cases h : image.size < offset + length
  · rw [if_neg (Nat.not_le.2 h), if_pos h]
    rfl
  · rw [if_pos (Nat.not_lt.1 h), if_neg h]
    rfl

/-- A byte of a part is a byte of the image. -/
theorem getElem?_part (image : Array UInt8) (i j k : Nat) :
    (image.extract i j)[k]? = if i + k < j then image[i + k]? else none := by
  rw [Array.getElem?_extract]
  by_cases hsize : i + k < image.size
  · have hiff : k < min j image.size - i ↔ i + k < j := by omega
    simp only [hiff]
  · rw [Array.getElem?_eq_none (Nat.not_lt.1 hsize), ite_self, ite_self]

/-- A byte of the header is a byte of the image. -/
theorem getD_extract_header (image : Array UInt8) {n : Nat} (hn : n < 16) :
    (image.extract 0 Header.size).getD n 0 = image.getD n 0 := by
  have hlt : 0 + n < Header.size := by rwa [Nat.zero_add]
  rw [Array.getD_eq_getD_getElem?, Array.getD_eq_getD_getElem?, getElem?_part, if_pos hlt,
    Nat.zero_add]

/-- The header can be read off the whole image. -/
theorem Header.ofBytes_extract (image : Array UInt8) :
    Header.ofBytes (image.extract 0 Header.size) = Header.ofBytes image := by
  unfold Header.ofBytes
  rw [getD_extract_header image (by decide), getD_extract_header image (by decide),
    getD_extract_header image (by decide), getD_extract_header image (by decide)]

namespace Contents

/-- **The faults of an image, in order.** -/
theorem ofBytes_eq (image : Array UInt8) :
    let header := Header.ofBytes image
    let prgStart := 16 + header.trainerLength
    let chrStart := prgStart + header.prgLength
    ofBytes image =
      if image.size < 16 then .error (.truncated .header 16 image.size)
      else if image.extract 0 4 ≠ Header.magic then .error .badMagic
      else if image.size < prgStart then
        .error (.truncated .trainer header.trainerLength (image.size - 16))
      else if image.size < chrStart then
        .error (.truncated .prgRom header.prgLength (image.size - prgStart))
      else if image.size < chrStart + header.chrLength then
        .error (.truncated .chrRom header.chrLength (image.size - chrStart))
      else .ok ⟨header, image.extract prgStart chrStart,
        image.extract chrStart (chrStart + header.chrLength)⟩ := by
  intro header prgStart chrStart
  have hmagic : (image.extract 0 Header.size).extract 0 4 = image.extract 0 4 := by
    rw [Array.extract_extract]
    rfl
  unfold ofBytes
  rw [ImagePart.extract_bind, Nat.zero_add, hmagic]
  by_cases hsize : image.size < 16
  · rw [if_pos hsize, if_pos (show image.size < Header.size from hsize)]
    rfl
  · rw [if_neg hsize, if_neg (show ¬ image.size < Header.size from hsize),
      Header.ofBytes_extract, ite_not]
    -- The parts after the magic bytes are read one after the other.
    simp only [ImagePart.extract_bind]
    rfl

/-- **Bytes after the last part are ignored.** -/
theorem ofBytes_append {image : Array UInt8} {c : Contents} (h : ofBytes image = .ok c)
    (rest : Array UInt8) : ofBytes (image ++ rest) = .ok c := by
  -- All that is read lies in the image.
  have hpart : ∀ {i j : Nat}, j ≤ image.size → (image ++ rest).extract i j = image.extract i j := by
    intro i j hj
    rw [Array.extract_append, Nat.sub_eq_zero_of_le hj]
    simp
  rw [ofBytes_eq_ok_iff] at h ⊢
  obtain ⟨hsize, hmagic, rfl⟩ := h
  have hhead : (image ++ rest).extract 0 Header.size = image.extract 0 Header.size :=
    hpart (by omega)
  dsimp only at hsize ⊢
  rw [hhead, hpart (by omega), hpart (by omega), Array.size_append]
  exact ⟨by omega, hmagic, rfl⟩

end Contents

/-- What an image holds makes a cartridge if its mapper is known. -/
theorem Cartridge.ofContents_eq (c : Contents) : ofContents c =
    if c.header.mapperId ≠ 0 then .error (.unsupportedMapper c.header.mapperId)
    else .ok
      { header := c.header
        mapper := .nrom c.header.prgBanks (c.header.chrBanks == 0)
        prg := c.prg
        chr := if c.header.chrBanks = 0 then .replicate 8192 0 else c.chrRom
        checksum := Crc32.checksum (c.prg ++ c.chrRom) } := by
  unfold ofContents Mapper.ofHeader?
  by_cases hm : c.header.mapperId = 0
  · have hchr : initialChr c =
        if c.header.chrBanks = 0 then .replicate 8192 0 else c.chrRom := by
      simp only [initialChr, Header.chrIsRam, beq_iff_eq]
      rfl
    rw [if_pos hm, if_neg (not_not_intro hm)]
    dsimp only
    rw [assemble, checksumOf_eq, hchr]
    rfl
  · rw [if_neg hm, if_pos hm]

/-! ### Images as bytes -/

namespace ImageBytes

section

variable (d : Array UInt8)

/-- A byte of an image. -/
def byte (n : Nat) : UInt8 := d.getD n 0

/-- The size of the trainer. -/
def trainerSize : Nat := if byte d 6 &&& 0x04 = 0 then 0 else 512

/-- The size of the program memory. -/
def prgSize : Nat := 16384 * (byte d 4).toNat

/-- The size of the picture ROM. -/
def chrSize : Nat := 8192 * (byte d 5).toNat

/-- The number of the mapper, whose digits stand in two bytes. -/
def mapperId : UInt8 := (byte d 7 &&& (0xF0 : UInt8)) ||| (byte d 6 >>> (4 : UInt8))

/-- The program memory starts here. -/
def prgStart : Nat := 16 + trainerSize d

/-- The picture ROM starts here. -/
def chrStart : Nat := prgStart d + prgSize d

/-- The last part ends here. -/
def payloadEnd : Nat := chrStart d + chrSize d

/-- The cartridge that the bytes of an image describe. -/
def cartridge : Cartridge where
  header :=
    { prgBanks := byte d 4
      chrBanks := byte d 5
      mapperId := mapperId d
      mirroring := if byte d 6 &&& 0x01 = 0 then .horizontal else .vertical
      hasTrainer := byte d 6 &&& 0x04 != 0 }
  mapper := .nrom (byte d 4) (byte d 5 == 0)
  prg := d.extract (prgStart d) (chrStart d)
  chr := if byte d 5 = 0 then .replicate 8192 0 else d.extract (chrStart d) (payloadEnd d)
  checksum := Crc32.checksum (d.extract (prgStart d) (payloadEnd d))

/-- The first fault of an image. -/
def fault? : Option LoadError :=
  if d.size < 16 then some (.malformed (.truncated .header 16 d.size))
  else if d.extract 0 4 ≠ #[0x4E, 0x45, 0x53, 0x1A] then some (.malformed .badMagic)
  else if d.size < 16 + trainerSize d then
    some (.malformed (.truncated .trainer 512 (d.size - 16)))
  else if d.size < 16 + trainerSize d + prgSize d then
    some (.malformed (.truncated .prgRom (prgSize d) (d.size - 16 - trainerSize d)))
  else if d.size < 16 + trainerSize d + prgSize d + chrSize d then
    some (.malformed (.truncated .chrRom (chrSize d) (d.size - 16 - trainerSize d - prgSize d)))
  else if mapperId d ≠ 0 then some (.unsupportedMapper (mapperId d))
  else none

/-- The images agree but for the trainer, bytes eight to fifteen, bits one and three of byte six,
the low digit of byte seven and what follows the last part. -/
structure Alike (d d' : Array UInt8) : Prop where
  start : ∀ n < 6, d[n]? = d'[n]?
  byte_six : byte d 6 &&& 0xF5 = byte d' 6 &&& 0xF5
  byte_seven : byte d 7 &&& 0xF0 = byte d' 7 &&& 0xF0
  payload : ∀ n, prgStart d ≤ n → n < payloadEnd d → d[n]? = d'[n]?

theorem trainerLength_ofBytes : (Header.ofBytes d).trainerLength = trainerSize d := by
  simp only [Header.trainerLength, Header.ofBytes, Header.ofFields, trainerSize, byte, bne_iff_ne,
    ne_eq, ite_not, Header.trainerSize]
  rfl

theorem prgLength_ofBytes : (Header.ofBytes d).prgLength = prgSize d := Nat.mul_comm _ _

theorem chrLength_ofBytes : (Header.ofBytes d).chrLength = chrSize d := Nat.mul_comm _ _

/-- The picture ROM follows the program memory. -/
theorem extract_append_extract :
    d.extract (prgStart d) (chrStart d) ++ d.extract (chrStart d) (payloadEnd d) =
      d.extract (prgStart d) (payloadEnd d) := by
  have hprg : prgStart d ≤ chrStart d := Nat.le_add_right _ _
  have hend : chrStart d ≤ payloadEnd d := Nat.le_add_right _ _
  rw [Array.extract_append_extract, Nat.min_eq_left hprg, Nat.max_eq_right hend]

/-- What is read from an image makes the cartridge that its bytes describe. -/
theorem ofContents_eq_cartridge :
    Cartridge.ofContents ⟨Header.ofBytes d, d.extract (prgStart d) (chrStart d),
        d.extract (chrStart d) (payloadEnd d)⟩ =
      if mapperId d ≠ 0 then .error (.unsupportedMapper (mapperId d)) else .ok (cartridge d) := by
  rw [Cartridge.ofContents_eq]
  dsimp only
  rw [extract_append_extract]
  rfl

theorem Alike.byte_eq {d d' : Array UInt8} (h : Alike d d') {n : Nat} (hn : n < 6) :
    byte d n = byte d' n := by
  rw [byte, byte, Array.getD_eq_getD_getElem?, Array.getD_eq_getD_getElem?, h.start n hn]

/-- Every bit that is compared agrees. -/
theorem Alike.byte_six_and {d d' : Array UInt8} (h : Alike d d') {mask : UInt8}
    (hmask : 0xF5 &&& mask = mask) : byte d 6 &&& mask = byte d' 6 &&& mask := by
  rw [← hmask, ← UInt8.and_assoc, ← UInt8.and_assoc, h.byte_six]

/-- **Images that differ in ignored bytes only describe the same cartridge.** -/
theorem Alike.cartridge_eq {d d' : Array UInt8} (h : Alike d d') : cartridge d = cartridge d' := by
  have h₄ : byte d 4 = byte d' 4 := h.byte_eq (by decide)
  have h₅ : byte d 5 = byte d' 5 := h.byte_eq (by decide)
  have hmirror : byte d 6 &&& 0x01 = byte d' 6 &&& 0x01 := h.byte_six_and (by decide)
  have htrainer : byte d 6 &&& 0x04 = byte d' 6 &&& 0x04 := h.byte_six_and (by decide)
  have hdigit : byte d 6 >>> (4 : UInt8) = byte d' 6 >>> (4 : UInt8) := by
    -- Shifting drops the low digit.
    have hshift : ∀ b : UInt8, b >>> (4 : UInt8) = (b &&& 0xF0) >>> (4 : UInt8) := by
      apply forall_byte
      decide +kernel
    rw [hshift, h.byte_six_and (by decide), ← hshift]
  have hid : mapperId d = mapperId d' := by
    rw [mapperId, mapperId, hdigit]
    exact congrArg (· ||| _) h.byte_seven
  have hprg : prgStart d = prgStart d' := by
    rw [prgStart, prgStart, trainerSize, trainerSize, htrainer]
  have hchr : chrStart d = chrStart d' := by
    rw [chrStart, chrStart, hprg, prgSize, prgSize, h₄]
  have hend : payloadEnd d = payloadEnd d' := by
    rw [payloadEnd, payloadEnd, hchr, chrSize, chrSize, h₅]
  have hpart : ∀ {i j}, prgStart d ≤ i → j ≤ payloadEnd d → d.extract i j = d'.extract i j := by
    intro i j hi hj
    apply Array.ext_getElem?
    intro k
    rw [getElem?_part, getElem?_part]
    split
    · next hk => exact h.payload (i + k) (by omega) (by omega)
    · rfl
  have hle₁ : chrStart d ≤ payloadEnd d := Nat.le_add_right _ _
  have hle₂ : prgStart d ≤ chrStart d := Nat.le_add_right _ _
  rw [cartridge, cartridge, ← h₄, ← h₅, ← hid, ← hmirror, ← htrainer, ← hprg, ← hchr, ← hend,
    hpart (Nat.le_refl _) hle₁, hpart hle₂ (Nat.le_refl _),
    hpart (Nat.le_refl _) (Nat.le_refl _)]

end

end ImageBytes

/-! ### Loading -/

namespace Cartridge

open ImageBytes

/-- Loading reports the first fault, and without one it gives the cartridge. -/
theorem load_eq (d : Array UInt8) :
    load d = match fault? d with
      | some e => .error e
      | none => .ok (cartridge d) := by
  have hmagic : (#[0x4E, 0x45, 0x53, 0x1A] : Array UInt8) = Header.magic := rfl
  unfold load fault?
  rw [Contents.ofBytes_eq, trainerLength_ofBytes, prgLength_ofBytes, chrLength_ofBytes, hmagic]
  by_cases hsize : d.size < 16
  · rw [if_pos hsize, if_pos hsize]
  rw [if_neg hsize, if_neg hsize]
  by_cases hmagic : d.extract 0 4 ≠ Header.magic
  · rw [if_pos hmagic, if_pos hmagic]
  rw [if_neg hmagic, if_neg hmagic]
  by_cases htrainer : d.size < 16 + trainerSize d
  · -- Only a trainer that the header announces can be missing.
    have hlength : trainerSize d = 512 := by
      unfold trainerSize at htrainer ⊢
      split
      · next h =>
        rw [if_pos h] at htrainer
        exact absurd htrainer hsize
      · rfl
    rw [if_pos htrainer, if_pos htrainer, hlength]
  rw [if_neg htrainer, if_neg htrainer]
  by_cases hprg : d.size < 16 + trainerSize d + prgSize d
  · rw [if_pos hprg, if_pos hprg, Nat.sub_sub]
  rw [if_neg hprg, if_neg hprg]
  by_cases hchr : d.size < 16 + trainerSize d + prgSize d + chrSize d
  · rw [if_pos hchr, if_pos hchr, Nat.sub_sub, Nat.sub_sub, Nat.add_assoc 16]
  rw [if_neg hchr, if_neg hchr]
  -- All parts are there, and the mapper decides.
  refine (ofContents_eq_cartridge d).trans ?_
  by_cases hm : mapperId d ≠ 0
  · rw [if_pos hm, if_pos hm]
  · rw [if_neg hm, if_neg hm]

/-- An image that is accepted makes the cartridge that its bytes describe. -/
theorem eq_cartridge_of_load {d : Array UInt8} {c : Cartridge} (h : load d = .ok c) :
    c = cartridge d := by
  rw [load_eq] at h
  cases hf : fault? d with
  | some e =>
    rw [hf] at h
    cases h
  | none =>
    rw [hf] at h
    exact (Except.ok.inj h).symm

/-- **What loading any bytes gives.**

* Bytes are accepted if all parts that the header announces are there and the mapper is number zero,
  and otherwise the first fault is reported, with the size that the part should have and the number
  of bytes that are left for it.
* The parts have the names by which they are reported.
* Two images that are accepted and differ in ignored bytes only make the same cartridge.
* An image whose parts have the declared sizes gives them back when it is loaded, whatever bytes
  follow it. -/
theorem load_format :
    (∀ d : Array UInt8, load d = match fault? d with
      | some e => .error e
      | none => .ok (cartridge d)) ∧
    [ImagePart.header, .trainer, .prgRom, .chrRom].map ImagePart.name =
      ["header", "trainer", "PRG ROM", "CHR ROM"] ∧
    (∀ d d' c c', load d = .ok c → load d' = .ok c' → Alike d d' → c = c') ∧
    (∀ i : Image, i.WellSized → ∀ rest, load (i.toBytes ++ rest) =
      if i.header.mapperId ≠ 0 then .error (.unsupportedMapper i.header.mapperId)
      else .ok
        { header := i.header
          mapper := .nrom i.prgBanks (i.chrBanks == 0)
          prg := i.prg
          chr := if i.chrBanks = 0 then .replicate 8192 0 else i.chr
          checksum := Crc32.checksum (i.prg ++ i.chr) }) := by
  refine ⟨load_eq, rfl, ?_, ?_⟩
  · intro d d' c c' hc hc' halike
    rw [eq_cartridge_of_load hc, eq_cartridge_of_load hc', halike.cartridge_eq]
  · intro i hsize rest
    have hread := Contents.ofBytes_append (Contents.ofBytes_toBytes hsize) rest
    rw [load, hread]
    exact ofContents_eq _

/-- Two images whose ignored bits, padding and last bytes differ make the same cartridge. -/
theorem load_format_of_ignored_bytes : ∃ d d' c c',
    (load d = .ok c ∧ load d' = .ok c' ∧ Alike d d') ∧ d ≠ d' ∧ c = c' := by
  obtain ⟨hload, -, hsame, -⟩ := load_format
  -- Both are headers without banks.
  obtain ⟨d, hd⟩ : ∃ d : Array UInt8,
      d = #[0x4E, 0x45, 0x53, 0x1A, 0, 0, 0, 0, 0, 0, 0, 0, 0, 0, 0, 0] := ⟨_, rfl⟩
  obtain ⟨d', hd'⟩ : ∃ d : Array UInt8,
      d = #[0x4E, 0x45, 0x53, 0x1A, 0, 0, 0x0A, 0x0F, 1, 2, 3, 4, 5, 6, 7, 8, 9] := ⟨_, rfl⟩
  have hfault : fault? d = none := by
    subst hd
    decide
  have hfault' : fault? d' = none := by
    subst hd'
    decide
  have hok : load d = .ok (cartridge d) := by rw [hload, hfault]
  have hok' : load d' = .ok (cartridge d') := by rw [hload, hfault']
  have halike : Alike d d' := by
    subst hd hd'
    refine ⟨by decide, by decide, by decide, fun n h₁ h₂ => ?_⟩
    exact absurd h₁ (Nat.not_le.2 h₂)
  exact ⟨d, d', _, _, ⟨hok, hok', halike⟩, by subst hd hd'; decide,
    hsame d d' _ _ hok hok' halike⟩

end Cartridge

end Nes
