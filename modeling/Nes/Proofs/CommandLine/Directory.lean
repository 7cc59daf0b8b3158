import Mathlib
import Nes.CommandLine.Directory

/-!
# Which paths name a file

A path names a file if its last component is the name under which the working directory holds the
file, and all components before that stay in the directory.  Nothing may follow the name, not even a
component that stays.  A path that leaves the directory names no file.

## Main definitions

* `Directory.Holds`: a directory holds a file under a name.

## Main statements

* `Directory.read_eq_ok_iff`: what is read, for every path.
* `Directory.read_of_holds`: a name alone is a path to its file.
-/

namespace Nes.Directory

variable {d : Directory} {path name : String} {bytes : Array UInt8}

/-- A directory holds a file under a name that a component of a path can be. -/
structure Holds (d : Directory) (name : String) (bytes : Array UInt8) : Prop where
  /-- The name does not stay in the directory. -/
  moves : isStay name = false
  /-- It does not leave the directory. -/
  inside : name ≠ ".."
  /-- It is not too long. -/
  short : name.utf8ByteSize ≤ maxName
  /-- The directory has a file of this name. -/
  found : d.files.lookup name = some bytes

theorem error_ne_ok (why : FileError) (bytes : Array UInt8) :
    (.error why : Except FileError (Array UInt8)) ≠ .ok bytes := by
  intro h
  cases h

/-- Outside of the working directory nothing is read. -/
theorem readOutside_ne_ok (names : List String) (bytes : Array UInt8) :
    readOutside names ≠ .ok bytes := by
  induction names with
  | nil => exact error_ne_ok _ _
  | cons name rest ih =>
    rw [readOutside]
    split
    · exact ih
    · split <;> exact error_ne_ok _ _

/-- A name that does not stay is read if it is the last and the directory holds it. -/
theorem readComponents_cons_eq_ok_iff (hmoves : isStay name = false) (rest : List String) :
    d.readComponents (name :: rest) = .ok bytes ↔ rest = [] ∧ d.Holds name bytes := by
  rw [readComponents, if_neg (by simp [hmoves])]
  -- The tests are made in this order, and each excludes a part of what it means to hold a file.
  by_cases hout : (name == "..") = true
  · rw [if_pos hout]
    refine ⟨fun h => absurd h (readOutside_ne_ok _ _), ?_⟩
    rintro ⟨-, h⟩
    exact absurd (beq_iff_eq.1 hout) h.inside
  rw [if_neg hout]
  by_cases hlong : maxName < name.utf8ByteSize
  · rw [if_pos hlong]
    refine ⟨fun h => absurd h (error_ne_ok _ _), ?_⟩
    rintro ⟨-, h⟩
    exact absurd hlong (Nat.not_lt_of_le h.short)
  rw [if_neg hlong]
  cases hfound : d.files.lookup name with
  | none =>
    refine ⟨fun h => absurd h (error_ne_ok _ _), ?_⟩
    rintro ⟨-, h⟩
    exact absurd (hfound.symm.trans h.found) nofun
  | some found =>
    have hholds : d.Holds name found :=
      ⟨hmoves, fun h => hout (beq_iff_eq.2 h), Nat.le_of_not_lt hlong, hfound⟩
    -- A file has nothing inside it, so the name is the last one.
    cases rest with
    | nil =>
      constructor
      · intro h
        cases h
        exact ⟨rfl, hholds⟩
      · rintro ⟨-, h⟩
        exact congrArg Except.ok (Option.some.inj (hfound.symm.trans h.found))
    | cons other rest =>
      refine ⟨fun h => absurd h (error_ne_ok _ _), ?_⟩
      rintro ⟨h, -⟩
      exact absurd h (List.cons_ne_nil _ _)

/-- **The components of a path** name a file if they stay in the directory up to its name. -/
theorem readComponents_eq_ok_iff {names : List String} :
    d.readComponents names = .ok bytes ↔ ∃ stays name, names = stays ++ [name] ∧
      (∀ stay ∈ stays, isStay stay = true) ∧ d.Holds name bytes := by
  induction names with
  | nil =>
    refine ⟨fun h => absurd h (error_ne_ok _ _), ?_⟩
    rintro ⟨stays, name, h, -, -⟩
    exact absurd h.symm (List.append_ne_nil_of_right_ne_nil _ (List.cons_ne_nil _ _))
  | cons first rest ih =>
    by_cases hstay : isStay first = true
    · rw [readComponents, if_pos hstay, ih]
      constructor
      · rintro ⟨stays, name, rfl, hstays, h⟩
        refine ⟨first :: stays, name, rfl, ?_, h⟩
        intro stay hmem
        rcases List.mem_cons.1 hmem with rfl | hmem
        · exact hstay
        · exact hstays stay hmem
      · rintro ⟨stays, name, hnames, hstays, h⟩
        cases stays with
        | nil =>
          -- The first component would be the name, but it stays.
          obtain ⟨rfl, -⟩ := List.cons.inj hnames
          exact absurd (hstay.symm.trans h.moves) nofun
        | cons stay stays =>
          obtain ⟨-, rfl⟩ := List.cons.inj hnames
          exact ⟨stays, name, rfl, fun s hs => hstays s (List.mem_cons_of_mem _ hs), h⟩
    · rw [readComponents_cons_eq_ok_iff (Bool.eq_false_iff.2 hstay)]
      constructor
      · rintro ⟨rfl, h⟩
        exact ⟨[], first, rfl, fun s hs => absurd hs List.not_mem_nil, h⟩
      · rintro ⟨stays, name, hnames, hstays, h⟩
        cases stays with
        | nil =>
          obtain ⟨rfl, rfl⟩ := List.cons.inj hnames
          exact ⟨rfl, h⟩
        | cons stay stays =>
          obtain ⟨rfl, -⟩ := List.cons.inj hnames
          exact absurd (hstays first List.mem_cons_self) hstay

/-- **What a path reads.**  It is read if it has no NUL character, is not too long and does not
start outside of the directory, and its components stay there up to the name of a file. -/
theorem read_eq_ok_iff : d.read path = .ok bytes ↔
    '\x00' ∉ path.toList ∧ path ≠ "" ∧ path.utf8ByteSize < pathLimit ∧ ¬ ['/'] <+: path.toList ∧
      ∃ stays name, components path = stays ++ [name] ∧ (∀ stay ∈ stays, isStay stay = true) ∧
        d.Holds name bytes := by
  rw [read, String.contains_char_eq, ← readComponents_eq_ok_iff]
  by_cases hnul : '\x00' ∈ path.toList
  · rw [if_pos (decide_eq_true hnul)]
    exact ⟨fun h => absurd h (error_ne_ok _ _), fun h => absurd hnul h.1⟩
  rw [if_neg (by simpa using hnul)]
  by_cases hempty : path = ""
  · rw [if_pos (beq_iff_eq.2 hempty)]
    exact ⟨fun h => absurd h (error_ne_ok _ _), fun h => absurd hempty h.2.1⟩
  rw [if_neg (by simpa using hempty)]
  by_cases hlong : pathLimit ≤ path.utf8ByteSize
  · rw [if_pos hlong]
    exact ⟨fun h => absurd h (error_ne_ok _ _), fun h => absurd h.2.2.1 (Nat.not_lt_of_le hlong)⟩
  rw [if_neg hlong]
  by_cases hroot : path.startsWith "/" = true
  · rw [if_pos hroot]
    have hslashed : ['/'] <+: path.toList := String.startsWith_string_iff.1 hroot
    exact ⟨fun h => absurd h (readOutside_ne_ok _ _), fun h => absurd hslashed h.2.2.2.1⟩
  · rw [if_neg hroot]
    have hslashed : ¬ ['/'] <+: path.toList := fun h => hroot (String.startsWith_string_iff.2 h)
    exact ⟨fun h => ⟨hnul, hempty, Nat.lt_of_not_le hlong, hslashed, h⟩, fun h => h.2.2.2.2⟩

/-- **A name is a path to its file**, if it has no slash and no NUL character. -/
theorem read_of_holds (h : d.Holds name bytes) (hslash : '/' ∉ name.toList)
    (hnul : '\x00' ∉ name.toList) : d.read name = .ok bytes := by
  have hempty : name ≠ "" := by
    rintro rfl
    exact absurd h.moves (by decide)
  have hlong : name.utf8ByteSize < pathLimit := Nat.lt_of_le_of_lt h.short (by decide)
  have hroot : ¬ ['/'] <+: name.toList := fun hslashed => hslash (hslashed.subset List.mem_cons_self)
  have hone : components name = [] ++ [name] := by
    rw [components, List.splitOn_eq_singleton hslash, List.map_singleton, String.ofList_toList]
    rfl
  exact read_eq_ok_iff.2 ⟨hnul, hempty, hlong, hroot, [], name, hone,
    fun s hs => absurd hs List.not_mem_nil, h⟩

end Nes.Directory
