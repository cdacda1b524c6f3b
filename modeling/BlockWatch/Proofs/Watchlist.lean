import BlockWatch.Proofs.Address
import BlockWatch.Proofs.Roster
import BlockWatch.Proofs.Text.Bytes
import BlockWatch.Proofs.Text.Lines
import BlockWatch.Watchlist
import Mathlib

/-!
# What is read from a watchlist

Normative source: SPEC_FULL.md, section 10.4:

    `load_watchlist(path)`: one address per line, `#` comments and blank lines ignored, each entry
    validated with `is_address` and normalized; an empty list is an error.

`outcome` is the specification, over all contents of a file: without UTF-8 there is no list; the
first of the lines that count (`listed`) that is no address is told with its number; a list without
addresses is refused; and otherwise the canonical spellings are returned, each at its first place.
`load_agrees` shows that `Watchlist.load` comes to this.

`load_again_iff` is about loading what was loaded.  The addresses that are returned are a watchlist
again, and load as themselves, exactly if every address in the file has a digit that is not zero.
-/

set_option autoImplicit false

namespace BlockWatch.Watchlist

/-! ## The lines that count -/

/-- The lines of a file that say something, trimmed, with their numbers counted from one. -/
def listed (text : List Char) : List (Nat × String) :=
  ((((Text.fileLines text).map Text.trim).zipIdx 1).filter fun (line, _) =>
    line ≠ [] && line.head? ≠ some '#').map fun (line, number) => (number, String.ofList line)

/-- The texts of these lines. -/
def texts (text : List Char) : List String := (listed text).map (·.2)

theorem isSilent_eq (line : List Char) :
    isSilent line = !(line ≠ [] && line.head? ≠ some '#') := by
  cases line <;> simp [isSilent]

theorem entries_eq_listed (text : List Char) : entries text = listed text := by
  obtain ⟨last, hlines, hlast⟩ := Text.map_trim_lines text
  have hentries : entries text =
      ((((Text.lines text).map Text.trim).zipIdx 1).filter fun (line, _) => !isSilent line).map
        fun (line, number) => (number, String.ofList line) := by
    rw [← List.filterMap_eq_map, List.filterMap_filter, List.zipIdx_map, List.filterMap_map]
    refine List.filterMap_congr fun entry _ => ?_
    cases hsilent : isSilent (Text.trim entry.1) <;> simp [hsilent]
  have hnothing : ∀ number, (last.zipIdx number).filter (fun (line, _) => !isSilent line) = [] := by
    refine fun number => List.filter_eq_nil_iff.mpr fun entry hentry => ?_
    simp [hlast entry.1 (List.fst_mem_of_mem_zipIdx hentry), isSilent]
  rw [hentries, hlines, List.zipIdx_append, List.filter_append, hnothing, List.append_nil, listed]
  simp only [isSilent_eq, Bool.not_not]

/-! ## Reading -/

/-- Collecting stops at the first entry that is no address. -/
theorem collect_eq (entries : List (Nat × String)) :
    ∀ roster, collect roster entries =
      match entries.find? fun entry => !Address.isValid entry.2 with
      | some (number, text) => .error (.invalidLine number text)
      | none => .ok (((entries.map (·.2)).map Address.canonical).foldl Roster.add roster) := by
  induction entries with
  | nil => exact fun _ => rfl
  | cons entry rest ih =>
      intro roster
      rw [collect]
      by_cases hvalid : Address.isValid entry.2 = true
      · rw [if_pos hvalid, ih, List.find?_cons_of_neg (by simpa using hvalid)]
        rfl
      · rw [if_neg hvalid, List.find?_cons_of_pos (by simpa using hvalid)]

theorem read_eq (text : List Char) :
    read text =
      match (listed text).find? fun entry => !Address.isValid entry.2 with
      | some (number, line) => .error (.invalidLine number line)
      | none =>
          if listed text = [] then .error .empty
          else .ok ((texts text).map Address.canonical).eraseDups := by
  rw [read, entries_eq_listed, collect_eq, texts]
  cases (listed text).find? fun entry => !Address.isValid entry.2 with
  | some entry => rfl
  | none =>
      have hroster := Roster.ofList_eq_eraseDups (((listed text).map (·.2)).map Address.canonical)
      simp only [Roster.ofList] at hroster
      rw [hroster]
      cases listed text with
      | nil => rfl
      | cons entry rest => simp only [List.map_cons, List.eraseDups_cons, reduceCtorEq, if_false]

/-- What the lines that count make of a file: the first one that is no address is told with its
number in the file, that there is none is told, and otherwise every address is returned in canonical
spelling, in the order of the file and at its first place only. -/
def outcome (path : String) (bytes : List UInt8) : Except Explanation (List String) :=
  match String.fromUTF8? ⟨bytes.toArray⟩ with
  | none =>
      .error ⟨"Failed to read watchlist file: " ++ Text.quoted path,
        ["stream did not contain valid UTF-8"]⟩
  | some text =>
      match (listed text.toList).find? fun entry => !Address.isValid entry.2 with
      | some (number, line) =>
          .error ⟨"Invalid address on line " ++ toString number ++ ": " ++ line, []⟩
      | none =>
          if listed text.toList = [] then
            .error ⟨"Watchlist is empty (no valid addresses found)", []⟩
          else .ok ((texts text.toList).map Address.canonical).eraseDups

theorem load_eq_outcome (path : String) (bytes : List UInt8) :
    load path (.ok bytes) = outcome path bytes := by
  have hcontent : (Except.ok bytes : Except FileFault (List UInt8)).bind decodeText =
      decodeText bytes := rfl
  rw [load, hcontent, decodeText, outcome]
  cases String.fromUTF8? ⟨bytes.toArray⟩ with
  | none => rfl
  | some text =>
      simp only [read_eq]
      cases (listed text.toList).find? fun entry => !Address.isValid entry.2 with
      | some entry => rfl
      | none =>
          by_cases hnone : listed text.toList = []
          · simp only [if_pos hnone]
            rfl
          · simp only [if_neg hnone]

theorem load_eq_ok_iff {path : String} {bytes : List UInt8} {addresses : List String} :
    load path (.ok bytes) = .ok addresses ↔
      ∃ text, bytes = Text.bytes text ∧ texts text.toList ≠ [] ∧
        (∀ line ∈ texts text.toList, Address.isValid line = true) ∧
        addresses = ((texts text.toList).map Address.canonical).eraseDups := by
  rw [load_eq_outcome, outcome]
  simp only [← Text.fromUTF8?_eq_some_iff]
  cases String.fromUTF8? ⟨bytes.toArray⟩ with
  | none => simp
  | some text =>
      simp only [Option.some.injEq, exists_eq_left']
      cases hfirst : (listed text.toList).find? fun entry => !Address.isValid entry.2 with
      | some entry =>
          have hinvalid := List.find?_some hfirst
          have hmem := List.mem_map_of_mem (f := (·.2)) (List.mem_of_find?_eq_some hfirst)
          simp only [reduceCtorEq, false_iff]
          rintro ⟨-, hvalid, -⟩
          simp [hvalid entry.2 hmem] at hinvalid
      | none =>
          have hvalid : ∀ line ∈ texts text.toList, Address.isValid line = true :=
            List.forall_mem_map.mpr fun entry hentry => by
              simpa using List.find?_eq_none.mp hfirst entry hentry
          have hnone : texts text.toList = [] ↔ listed text.toList = [] := List.map_eq_nil_iff
          by_cases hempty : listed text.toList = []
          · simp [hempty, hnone]
          · simp only [if_neg hempty, Except.ok.injEq]
            exact ⟨fun h => ⟨mt hnone.mp hempty, hvalid, h.symm⟩, fun h => h.2.2.symm⟩

theorem nodup_of_load {path : String} {bytes : List UInt8} {addresses : List String}
    (h : load path (.ok bytes) = .ok addresses) : addresses.Nodup := by
  obtain ⟨text, -, -, -, rfl⟩ := load_eq_ok_iff.mp h
  rw [← Roster.ofList_eq_eraseDups]
  exact Roster.nodup_ofList _

/-- Loading a file gives the outcome of the lines that count.  No address is returned twice, and the
canonical spellings of the addresses in the file are what is returned. -/
theorem load_agrees (path : String) (bytes : List UInt8) :
    load path (.ok bytes) = outcome path bytes ∧
      ∀ addresses, load path (.ok bytes) = .ok addresses →
        addresses.Nodup ∧ ∃ text, bytes = Text.bytes text ∧ ∀ address, address ∈ addresses ↔
          ∃ line ∈ texts text.toList, Address.canonical line = address := by
  refine ⟨load_eq_outcome path bytes, fun addresses h => ⟨nodup_of_load h, ?_⟩⟩
  obtain ⟨text, hbytes, -, -, rfl⟩ := load_eq_ok_iff.mp h
  exact ⟨text, hbytes, fun address => by rw [List.mem_eraseDups, List.mem_map]⟩

/-! ## Reading again -/

theorem texts_of_lines {text : List Char} {addresses : List String}
    (lines : (Text.fileLines text).map String.ofList = addresses)
    (unblank : ∀ address ∈ addresses, ∀ c ∈ address.toList, Text.isBlank c = false)
    (first : ∀ address ∈ addresses, address.toList.head? = some '0') :
    texts text = addresses := by
  subst lines
  rw [List.forall_mem_map] at unblank first
  simp only [String.toList_ofList] at unblank first
  have htrim : (Text.fileLines text).map Text.trim = Text.fileLines text :=
    (List.map_congr_left fun line hline => Text.trim_of_forall_not_blank (unblank line hline)).trans
      (List.map_id _)
  have hkeep : ∀ entry ∈ (Text.fileLines text).zipIdx 1,
      (entry.1 ≠ [] && entry.1.head? ≠ some '#') = true := by
    intro entry hentry
    have hfirst := first entry.1 (List.fst_mem_of_mem_zipIdx hentry)
    have hsome : entry.1 ≠ [] := by
      rintro hnone
      simp [hnone] at hfirst
    simp [hsome, hfirst]
  rw [texts, listed, htrim, List.filter_eq_self.mpr hkeep, List.map_map]
  calc ((Text.fileLines text).zipIdx 1).map (String.ofList ∘ Prod.fst)
      = (((Text.fileLines text).zipIdx 1).map Prod.fst).map String.ofList := List.map_map.symm
    _ = (Text.fileLines text).map String.ofList := by rw [List.zipIdx_map_fst]

/-- A file that lists canonical spellings without repetition is loaded as these exactly if each of
them is an address. -/
theorem load_eq_self_iff {text : String} {addresses : List String}
    (listing : texts text.toList = addresses) (some : addresses ≠ []) (nodup : addresses.Nodup)
    (canonical : ∀ address ∈ addresses, Address.canonical address = address) (path : String) :
    load path (.ok (Text.bytes text)) = .ok addresses ↔
      ∀ address ∈ addresses, Address.isValid address = true := by
  subst listing
  rw [load_eq_ok_iff]
  constructor
  · rintro ⟨other, hbytes, -, hvalid, -⟩
    obtain rfl := Text.bytes_inj.mp hbytes
    exact hvalid
  · intro hvalid
    refine ⟨text, rfl, some, hvalid, ?_⟩
    rw [List.map_congr_left canonical, List.map_id', ← Roster.ofList_eq_eraseDups,
      Roster.ofList_of_nodup nodup]

/-- What was loaded is loaded again as itself exactly where every address in the file has a digit
that is not zero: just then what was returned are addresses, and just then a file of these lines is
a watchlist. -/
theorem load_again_iff {path : String} {bytes : List UInt8} {addresses : List String}
    (h : load path (.ok bytes) = .ok addresses) :
    ∃ text, bytes = Text.bytes text ∧
      ((∀ address ∈ addresses, Address.isValid address = true) ↔
        ∀ line ∈ texts text.toList, ¬ Address.IsZero line) ∧
      (∃ again : String, (Text.fileLines again.toList).map String.ofList = addresses) ∧
      ∀ other again : String, (Text.fileLines again.toList).map String.ofList = addresses →
        (load other (.ok (Text.bytes again)) = .ok addresses ↔
          ∀ line ∈ texts text.toList, ¬ Address.IsZero line) := by
  have hnodup := nodup_of_load h
  obtain ⟨text, hbytes, hsome, hvalid, haddresses⟩ := load_eq_ok_iff.mp h
  -- Every address that was returned is the canonical spelling of one in the file.
  have hall : ∀ {P : String → Prop}, (∀ address ∈ addresses, P address) ↔
      ∀ line ∈ texts text.toList, P (Address.canonical line) := by
    intro P
    simp only [haddresses, List.mem_eraseDups, List.forall_mem_map]
  have hvalidAgain : (∀ address ∈ addresses, Address.isValid address = true) ↔
      ∀ line ∈ texts text.toList, ¬ Address.IsZero line :=
    hall.trans (forall₂_congr fun line hline => Address.isValid_canonical_iff (hvalid line hline))
  have hunblank : ∀ address ∈ addresses, ∀ c ∈ address.toList, Text.isBlank c = false :=
    hall.mpr fun line hline => Address.not_blank_canonical (hvalid line hline)
  have hne : addresses ≠ [] := by
    obtain ⟨line, hline⟩ := List.exists_mem_of_ne_nil _ hsome
    rw [haddresses]
    exact List.ne_nil_of_mem (List.mem_eraseDups.mpr (List.mem_map_of_mem hline))
  refine ⟨text, hbytes, hvalidAgain, Text.exists_fileLines hunblank, ?_⟩
  intro other again hlines
  have hlisting := texts_of_lines hlines hunblank
    (hall.mpr fun line _ => Address.head?_canonical line)
  have hcanonical : ∀ address ∈ addresses, Address.canonical address = address :=
    hall.mpr fun line _ => Address.canonical_idem line
  exact (load_eq_self_iff hlisting hne hnodup hcanonical other).trans hvalidAgain

/-- Leading zeros, another spelling of the same address, a comment and two kinds of line ends. -/
theorem load_again_iff_twoSpellings :
    let content := "# wallets\r\n0x00Ab\r\n\r\n 0xAb\n0x5"
    load "watchlist" (.ok (Text.bytes content)) = .ok ["0xAb", "0x5"] ∧
      (∀ address ∈ ["0xAb", "0x5"], Address.isValid address = true) ∧
      load "watchlist" (.ok (Text.bytes "0xAb\n0x5\n")) = .ok ["0xAb", "0x5"] := by
  intro content
  have htexts : texts content.toList = ["0x00Ab", "0xAb", "0x5"] := by cbv
  have hload : load "watchlist" (.ok (Text.bytes content)) = .ok ["0xAb", "0x5"] := by
    refine load_eq_ok_iff.mpr ⟨content, rfl, ?_⟩
    rw [htexts]
    decide
  obtain ⟨text, hbytes, hvalid, -, hagain⟩ := load_again_iff hload
  obtain rfl := Text.bytes_inj.mp hbytes
  have hdigits : ∀ line ∈ texts content.toList, ¬ Address.IsZero line := by
    rw [htexts]
    decide
  have hlines : (Text.fileLines "0xAb\n0x5\n".toList).map String.ofList = ["0xAb", "0x5"] := by cbv
  exact ⟨hload, hvalid.mpr hdigits, (hagain "watchlist" _ hlines).mpr hdigits⟩

/-- No digit of the address zero is kept, and what is left is no address. -/
theorem load_zero :
    load "watchlist" (.ok (Text.bytes "0x0\n")) = .ok ["0x"] ∧ Address.isValid "0x" = false ∧
      load "watchlist" (.ok (Text.bytes "0x\n")) =
        .error ⟨"Invalid address on line 1: 0x", []⟩ := by
  refine ⟨load_eq_ok_iff.mpr ⟨"0x0\n", rfl, by decide, by decide, by decide⟩, by decide, ?_⟩
  have hinvalid : (listed "0x\n".toList).find? (fun entry => !Address.isValid entry.2) =
      some (1, "0x") := by decide
  rw [load_eq_outcome, outcome, Text.fromUTF8?_bytes]
  simp only [hinvalid]
  decide

end BlockWatch.Watchlist
