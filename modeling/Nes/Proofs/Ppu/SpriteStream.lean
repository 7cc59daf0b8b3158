import Nes.Proofs.Ppu.VblankHistory
import Nes.Proofs.Stores

/-!
# Streams into sprite memory

Sprite memory is reached through an address register and a data register.  A byte that is written
through the data register is stored at the address, which moves on by one and from the end of sprite
memory to its beginning.  Reading shows the byte at the address and does not move on.  Nothing else
that is done to the picture unit comes near: not the dots, and not the traffic through picture
memory, which has an address of its own.

So whoever sets the address and writes byte after byte goes round sprite memory, whatever else is
done in between.  Of the bytes that come to one place the last one stays, and where none comes the
old one does.

## Main definitions

* `Ppu.Action.setsOamAddress`, `Ppu.Action.oamByte?`: what an action is to sprite memory.
* `Ppu.oamBytes`, `Ppu.oamPlace`: the bytes of a stream and the places where they go.
* `Ppu.sprites`: sprite memory and the address in it.

## Main statements

* `Ppu.sprites_act`, `Ppu.sprites_actAll`: what an action, and what a stream, does to them.
* `Ppu.sprite_stream`: what a place holds after a stream, and what is read in the midst of it.
-/

namespace Nes.Ppu

namespace Action

/-- The address in sprite memory is set. -/
def setsOamAddress : Action → Bool
  | .write _ .oamAddress _ => true
  | _ => false

/-- The byte that is written to sprite memory, if one is. -/
def oamByte? : Action → Option UInt8
  | .write _ .oamData value => some value
  | _ => none

end Action

/-- The bytes that are written to sprite memory, in order. -/
def oamBytes (acts : List Action) : List UInt8 := acts.filterMap (·.oamByte?)

/-- The place of a byte of a stream, by its number in the stream: counted from the address where the
stream starts, and round. -/
def oamPlace (start : UInt8) (i : Nat) : Fin 256 :=
  ⟨(start.toNat + i) % 256, Nat.mod_lt _ (by decide)⟩

/-- The address in sprite memory, and sprite memory. -/
def sprites (p : Ppu) : Fin 256 × Vector UInt8 256 := (p.oamAddress.toFin, p.oam)

theorem oamBytes_concat (acts : List Action) (a : Action) :
    oamBytes (acts ++ [a]) = oamBytes acts ++ a.oamByte?.toList := by
  rw [oamBytes, List.filterMap_append]
  cases h : a.oamByte? with
  | none => rw [List.filterMap_cons_none h]; rfl
  | some value => rw [List.filterMap_cons_some h]; rfl

theorem oamPlace_zero (start : UInt8) : oamPlace start 0 = start.toFin :=
  Fin.ext (Nat.mod_eq_of_lt start.toNat_lt)

/-- The byte after one goes to the place after it, and from the end to the beginning. -/
theorem toFin_add_one {address start : UInt8} {i : Nat} (h : address.toFin = oamPlace start i) :
    (address + 1).toFin = oamPlace start (i + 1) := by
  have hplace : address.toNat = (start.toNat + i) % 256 := congrArg Fin.val h
  apply Fin.ext
  show (address + 1).toNat = (start.toNat + (i + 1)) % 256
  rw [UInt8.toNat_add, hplace]
  show ((start.toNat + i) % 256 + 1) % 256 = _
  omega

variable (p : Ppu)

theorem sprites_writeVideo (cart : Cartridge) (addr : UInt16) (value : UInt8) :
    (p.writeVideo cart addr value).1.sprites = p.sprites := by
  obtain ⟨store, cart', h⟩ := exists_writeVideo_eq cart addr value
  rw [h]
  rfl

/-- **What an action does to sprite memory.**  A byte is stored and the address moves on, or both
are as they were. -/
theorem sprites_act {a : Action} (ha : a.setsOamAddress = false) : (p.act a).sprites =
    match a.oamByte? with
    | some value => ((p.oamAddress + 1).toFin, p.oam.set p.oamAddress.toFin value)
    | none => p.sprites := by
  -- Of all registers two concern sprite memory, and the one that sets the address is left out.
  cases a with
  | read cart r => cases r <;> rfl
  | write cart r value =>
    cases r with
    | oamAddress => exact absurd ha Bool.false_ne_true.symm
    | scroll =>
      show (p.writeScroll value).sprites = p.sprites
      rw [writeScroll_eq]
      rfl
    | videoAddress =>
      show (p.writeAddress value).sprites = p.sprites
      rw [writeAddress_eq]
      rfl
    | videoData => exact p.sprites_writeVideo cart p.videoAddress value
    | _ => rfl
  | writeVideo cart addr value => exact p.sprites_writeVideo cart addr value
  | dot | peek | takeNmiRequest | takeFrameComplete => rfl

/-- **What a stream does to sprite memory**: its bytes are stored one after the other, and the
address is at the place after the last of them. -/
theorem sprites_actAll {acts : List Action} (hacts : ∀ a ∈ acts, a.setsOamAddress = false) :
    (p.actAll acts).sprites =
      (oamPlace p.oamAddress (oamBytes acts).length,
        storeAll p.oam (placed (oamPlace p.oamAddress) (oamBytes acts))) := by
  -- The last action comes after all the bytes before it, so the induction is from the end.
  induction acts using List.reverseRecOn with
  | nil => exact congrArg (·, p.oam) (oamPlace_zero p.oamAddress).symm
  | append_singleton acts a ih =>
    obtain ⟨hacts, ha⟩ := List.forall_mem_append.1 hacts
    have hearlier := ih hacts
    obtain ⟨haddress, hoam⟩ := Prod.mk.inj hearlier
    rw [actAll_append, oamBytes_concat]
    show ((p.actAll acts).act a).sprites = _
    rw [sprites_act _ (ha a (List.mem_singleton_self a))]
    cases a.oamByte? with
    | none =>
      rw [Option.toList_none, List.append_nil]
      exact hearlier
    | some value =>
      rw [Option.toList_some, placed_concat, storeAll_concat, ← hoam, ← haddress,
        List.length_append, List.length_singleton, ← toFin_add_one haddress]

/-- **Streams into sprite memory.**  Let the address in sprite memory be set and then anything be
done to the picture unit except setting it again, so that in between bytes are written to sprite
memory.  Their places are counted from the address and go round.

* A place holds the last of the bytes that came there, and what it held before if none did.
* At any time the address is at the place of the next byte.  Reading the data register, or peeking at
  it, then gives the byte at that place, and reading changes nothing. -/
theorem sprite_stream (cart : Cartridge) (start : UInt8) {bytes : List UInt8} {acts : List Action}
    (hacts : ∀ a ∈ acts, a.setsOamAddress = false) (hbytes : oamBytes acts = bytes) :
    let after (acts : List Action) : Ppu := p.actAll (.write cart .oamAddress start :: acts)
    let place := oamPlace start
    (∀ j,
      (∀ i (hi : i < bytes.length), place i = j →
        (∀ i' < bytes.length, place i' = j → i' ≤ i) → (after acts).oam.get j = bytes[i]) ∧
      ((∀ i < bytes.length, place i ≠ j) → (after acts).oam.get j = p.oam.get j)) ∧
    (∀ before, before <+: acts → ∀ cart' : Cartridge,
      let q := after before
      let next := place (oamBytes before).length
      q.oamAddress.toFin = next ∧ q.readRegister cart' .oamData = (q.oam.get next, q) ∧
        q.peekRegister cart' .oamData = q.oam.get next) := by
  subst hbytes
  intro after place
  -- What holds after the whole stream holds after each part of it from the beginning.
  have hsprites {before : List Action} (hbefore : before <+: acts) :
      (after before).sprites =
        (place (oamBytes before).length, storeAll p.oam (placed place (oamBytes before))) :=
    (p.act (.write cart .oamAddress start)).sprites_actAll fun a ha =>
      hacts a (hbefore.subset ha)
  constructor
  · intro j
    obtain ⟨-, hoam⟩ := Prod.mk.inj (hsprites (List.prefix_refl acts))
    rw [hoam]
    constructor
    · rintro i hi rfl hlast
      exact getElem_storeAll_placed hi hlast p.oam
    · intro hnone
      refine getElem_storeAll_of_forall_ne (fun s hs => ?_) p.oam
      obtain ⟨i, hi, rfl⟩ := mem_placed.1 hs
      exact hnone i hi
  · intro before hbefore cart' q next
    obtain ⟨haddress, -⟩ := Prod.mk.inj (hsprites hbefore)
    have hbyte : q.oamByte = q.oam.get next := congrArg q.oam.get haddress
    exact ⟨haddress, congrArg (·, q) hbyte, hbyte⟩

/-- A stream that goes round sprite memory once and one byte further.  The last byte comes to the
place of the first, which is read just before, after a write to picture memory. -/
theorem sprite_stream_around :
    let cart := Cartridge.blank
    let filling : List Action :=
      .replicate 256 (.write cart .oamData 0xAA) ++ [.write cart .videoData 0x11]
    let acts : List Action := filling ++ [.read cart .oamData, .write cart .oamData 0xBB]
    let after (acts : List Action) : Ppu := powerOn.actAll (.write cart .oamAddress 0xFE :: acts)
    (∀ a ∈ acts, a.setsOamAddress = false) ∧ oamBytes acts = .replicate 256 0xAA ++ [0xBB] ∧
      (after acts).oam[0xFE] = 0xBB ∧ (after acts).oam[0xFD] = 0xAA ∧
      ((after filling).readRegister cart .oamData).1 = 0xAA := by
  intro cart filling acts after
  have hacts : ∀ a ∈ acts, a.setsOamAddress = false := by
    simp only [acts, filling, List.forall_mem_append, List.forall_mem_cons]
    refine ⟨⟨fun a ha => ?_, rfl, nofun⟩, rfl, rfl, nofun⟩
    rw [List.eq_of_mem_replicate ha]
    rfl
  have hfilling : oamBytes filling = .replicate 256 0xAA := by
    rw [oamBytes_concat]
    exact (List.append_nil _).trans (List.filterMap_replicate_of_some rfl)
  have hbytes : oamBytes acts = .replicate 256 0xAA ++ [0xBB] := by
    rw [oamBytes, List.filterMap_append]
    exact congrArg (· ++ [0xBB]) hfilling
  -- The places are compared as numbers.
  have hplace {i : Nat} {j : Fin 256} (h : oamPlace 0xFE i = j) : (0xFE + i) % 256 = j.val :=
    congrArg Fin.val h
  obtain ⟨hlast, hreads⟩ := powerOn.sprite_stream cart 0xFE hacts hbytes
  obtain ⟨hfirst, -⟩ := powerOn.sprite_stream cart 0xFE
    (fun a ha => hacts a (List.mem_append_left _ ha)) hfilling
  simp only [List.length_append, List.length_replicate, List.length_singleton] at hlast hfirst
  refine ⟨hacts, hbytes, ?_, ?_, ?_⟩
  · exact (hlast 0xFE).1 256 (by decide) rfl fun i hi _ => Nat.le_of_lt_succ hi
  · -- No other of the bytes came to this place.
    refine (hlast 0xFD).1 255 (by decide) rfl fun i hi h => ?_
    have hat : (0xFE + i) % 256 = 0xFD := hplace h
    omega
  · obtain ⟨-, hread, -⟩ := hreads filling (List.prefix_append _ _) cart
    simp only [hfilling, List.length_replicate] at hread
    refine (congrArg (·.1) hread).trans ((hfirst 0xFE).1 0 (by decide) rfl fun i hi h => ?_)
    have hat : (0xFE + i) % 256 = 0xFE := hplace h
    omega

end Nes.Ppu
