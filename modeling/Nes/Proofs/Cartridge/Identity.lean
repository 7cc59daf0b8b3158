import Nes.Proofs.Cartridge.Format
import Nes.Proofs.Checksum.Burst

/-!
# Images told apart by their check value

The check value of a cartridge is that of the payload of its image: the program memory and, where
there is one, the picture ROM behind it.  Nothing else of an image enters it, and neither does
picture RAM, of which an image holds nothing.

Images with as many banks have payloads of one size.  So it is noticed if one of two such payloads is
the other with a change within four bytes in a row, also where the change goes on from the program
memory to the picture ROM.

## Main definitions

* `ImageBytes.payload`: what of an image enters its check value.

## Main statements

* `ImageBytes.checksum_of_load`, `ImageBytes.payload_of_load`: the check value of a cartridge.
* `Cartridge.checksum_identifies`: the check value tells payloads apart, and nothing else.
-/

namespace Nes

namespace ImageBytes

/-- What of an image enters its check value. -/
def payload (d : Array UInt8) : Array UInt8 := d.extract (prgStart d) (payloadEnd d)

section Loaded

variable {d : Array UInt8} {c : Cartridge} (h : Cartridge.load d = .ok c)

include h

theorem checksum_of_load : c.checksum = Crc32.checksum (payload d) := by
  rw [Cartridge.eq_cartridge_of_load h]
  rfl

/-- The payload is the program memory, and the picture ROM if there is one. -/
theorem payload_of_load : payload d = c.prg ++ if c.header.chrBanks = 0 then #[] else c.chr := by
  rw [Cartridge.eq_cartridge_of_load h, payload, ← extract_append_extract]
  show _ = d.extract (prgStart d) (chrStart d) ++ if byte d 5 = 0 then #[] else
    if byte d 5 = 0 then .replicate 8192 0 else d.extract (chrStart d) (payloadEnd d)
  by_cases hram : byte d 5 = 0
  · have hend : payloadEnd d = chrStart d := by rw [payloadEnd, chrSize, hram]; rfl
    rw [if_pos hram, hend, Array.extract_empty_of_stop_le_start (Nat.le_refl _)]
  · rw [if_neg hram, if_neg hram]

/-- All of the payload is there. -/
theorem payloadEnd_le_size : payloadEnd d ≤ d.size := by
  obtain ⟨contents, hcontents, -⟩ := Cartridge.load_eq_ok_iff.1 h
  obtain ⟨hsize, -⟩ := Contents.ofBytes_eq_ok_iff.1 hcontents
  rw [Header.ofBytes_extract, trainerLength_ofBytes, prgLength_ofBytes, chrLength_ofBytes] at hsize
  exact hsize

/-- The banks fix the size of the payload. -/
theorem size_payload : (payload d).size =
    16384 * c.header.prgBanks.toNat + 8192 * c.header.chrBanks.toNat := by
  have hsize := payloadEnd_le_size h
  rw [Cartridge.eq_cartridge_of_load h, payload, Array.size_extract, Nat.min_eq_left hsize,
    payloadEnd, chrStart, Nat.add_assoc, Nat.add_sub_cancel_left]
  rfl

/-- A device that computes check values computes that of a cartridge from its memories. -/
theorem checksum_accumulated {a : Crc32.Accumulator} (ha : a.Computes) :
    c.checksum = a.value (if c.header.chrBanks = 0 then a.take a.start c.prg
      else a.take (a.take a.start c.prg) c.chr) := by
  rw [checksum_of_load h, payload_of_load h, ← ha.value_take]
  by_cases hram : c.header.chrBanks = 0
  · rw [if_pos hram, if_pos hram, Array.append_empty]
  · rw [if_neg hram, if_neg hram, ha.value_take_take]

end Loaded

end ImageBytes

namespace Cartridge

open ImageBytes

/-- **The check value identifies the payload of an image.**

* It is the cyclic redundancy check of thirty-two bits of the program memory, followed by the picture
  ROM if there is one.  Picture RAM does not enter it.  It is what any device gives that computes this
  check if it is fed with the program memory and then, unless it is RAM, with the picture memory.
* Let two images with the same numbers of banks be accepted.  If their payloads differ, but only
  within four bytes in a row, their check values differ.
* Two accepted images with the same payload have the same check value, whatever their other bytes
  are. -/
theorem checksum_identifies :
    (∀ d c, load d = .ok c →
      c.checksum = Crc32.checksum (payload d) ∧
      payload d = c.prg ++ (if c.header.chrBanks = 0 then #[] else c.chr) ∧
      ∀ a : Crc32.Accumulator, a.Computes →
        c.checksum = a.value (if c.header.chrBanks = 0 then a.take a.start c.prg
          else a.take (a.take a.start c.prg) c.chr)) ∧
    (∀ d d' c c', load d = .ok c → load d' = .ok c' →
      c.header.prgBanks = c'.header.prgBanks → c.header.chrBanks = c'.header.chrBanks →
      payload d ≠ payload d' →
      ∀ k, (∀ i, (payload d)[i]? ≠ (payload d')[i]? → k ≤ i ∧ i < k + 4) →
        c.checksum ≠ c'.checksum) ∧
    (∀ d d' c c', load d = .ok c → load d' = .ok c' → payload d = payload d' →
      c.checksum = c'.checksum) := by
  refine ⟨fun d c h => ⟨checksum_of_load h, payload_of_load h, fun a => checksum_accumulated h⟩,
    ?_, ?_⟩
  · intro d d' c c' h h' hprg hchr hne k hwindow
    -- The numbers of banks fix the sizes, and the burst is one of the payload.
    have hsize : (payload d).size = (payload d').size := by
      rw [size_payload h, size_payload h', hprg, hchr]
    rw [checksum_of_load h, checksum_of_load h']
    exact Crc32.checksum_ne_of_burst hsize hne hwindow
  · intro d d' c c' h h' hpayload
    rw [checksum_of_load h, checksum_of_load h', hpayload]

/-- Two images that differ in the last byte of the program memory and the first of the picture ROM,
and in the wiring of their nametables.  The device that keeps the remainder gives the check value. -/
theorem checksum_identifies_across_memories : ∃ d d' c c',
    (load d = .ok c ∧ load d' = .ok c' ∧ c.header.prgBanks = c'.header.prgBanks ∧
      c.header.chrBanks = c'.header.chrBanks ∧ payload d ≠ payload d' ∧
      ∀ i, (payload d)[i]? ≠ (payload d')[i]? → 0x3FFE ≤ i ∧ i < 0x3FFE + 4) ∧
    c.header.mirroring ≠ c'.header.mirroring ∧ c.checksum ≠ c'.checksum ∧
    c.checksum = Crc32.finish (Crc32.feedAll (Crc32.feedAll Crc32.start c.prg) c.chr) := by
  obtain ⟨prg, hprg⟩ : ∃ prg : Array UInt8, prg = .replicate 0x4000 0 := ⟨_, rfl⟩
  obtain ⟨chr, hchr⟩ : ∃ chr : Array UInt8, chr = .replicate 0x2000 0 := ⟨_, rfl⟩
  have hprgSize : prg.size = 0x4000 := hprg ▸ Array.size_replicate
  have hchrSize : chr.size = 0x2000 := hchr ▸ Array.size_replicate
  -- the headers are evaluated apart from the images, which hold the two memories
  have hprgLength : prg.size = (Header.ofFields 1 1 0 0).prgLength := hprgSize.trans (by decide)
  have hchrLength : chr.size = (Header.ofFields 1 1 0 0).chrLength := hchrSize.trans (by decide)
  have hmirroring : (Header.ofFields 1 1 0 0).mirroring ≠ (Header.ofFields 1 1 1 0).mirroring := by
    decide
  have hheader : (Header.ofFields 1 1 0 0).mapperId = 0 ∧
      (Header.ofFields 1 1 0 0).trainerLength = 0 := by decide
  have hheader' : (Header.ofFields 1 1 1 0).mapperId = 0 ∧
      (Header.ofFields 1 1 1 0).trainerLength = 0 := by decide
  have hsize : Image.WellSized ⟨1, 1, 0, 0, .replicate 8 0, #[], prg, chr⟩ :=
    ⟨hheader.2.symm, hprgLength, hchrLength⟩
  have hsize' : Image.WellSized
      ⟨1, 1, 1, 0, .replicate 8 0, #[], prg.setIfInBounds 0x3FFF 1, chr.setIfInBounds 0 1⟩ :=
    ⟨hheader'.2.symm, Array.size_setIfInBounds.trans hprgLength,
      Array.size_setIfInBounds.trans hchrLength⟩
  have hload := load_toBytes hsize hheader.1
  have hload' := load_toBytes hsize' hheader'.1
  obtain ⟨hsum, hburst, -⟩ := checksum_identifies
  obtain ⟨-, hpayload, hdevice⟩ := hsum _ _ hload
  obtain ⟨-, hpayload', -⟩ := hsum _ _ hload'
  change _ = prg ++ chr at hpayload
  change _ = prg.setIfInBounds 0x3FFF 1 ++ chr.setIfInBounds 0 1 at hpayload'
  have hlast : prg[0x3FFF]? = some 0 := by rw [hprg, Array.getElem?_replicate, if_pos (by decide)]
  have hne : prg ++ chr ≠ prg.setIfInBounds 0x3FFF 1 ++ chr.setIfInBounds 0 1 := by
    intro h
    have hbyte : (prg ++ chr)[0x3FFF]? =
        (prg.setIfInBounds 0x3FFF 1 ++ chr.setIfInBounds 0 1)[0x3FFF]? := by rw [← h]
    rw [Array.getElem?_append_left (by rw [hprgSize]; decide),
      Array.getElem?_append_left (by rw [Array.size_setIfInBounds, hprgSize]; decide), hlast,
      Array.getElem?_setIfInBounds_self_of_lt (by rw [hprgSize]; decide)] at hbyte
    exact absurd hbyte (by decide)
  have hwindow : ∀ i, (prg ++ chr)[i]? ≠ (prg.setIfInBounds 0x3FFF 1 ++ chr.setIfInBounds 0 1)[i]? →
      0x3FFE ≤ i ∧ i < 0x3FFE + 4 := by
    intro i hi
    by_contra hout
    apply hi
    rw [Array.getElem?_append, Array.getElem?_append, Array.size_setIfInBounds, hprgSize]
    by_cases hlow : i < 0x4000
    · rw [if_pos hlow, if_pos hlow, Array.getElem?_setIfInBounds_ne (by omega)]
    · rw [if_neg hlow, if_neg hlow, Array.getElem?_setIfInBounds_ne (by omega)]
  rw [← hpayload, ← hpayload'] at hne hwindow
  exact ⟨_, _, _, _, ⟨hload, hload', rfl, rfl, hne, hwindow⟩, hmirroring,
    hburst _ _ _ _ hload hload' rfl rfl hne 0x3FFE hwindow,
    hdevice .remainder Crc32.Accumulator.computes_remainder⟩

end Cartridge

end Nes
