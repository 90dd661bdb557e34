import LibreSync.RecordKey

/-! The base64 text that the command-line key stores keep their items as. -/

namespace LibreSync

namespace Keystore

def alphabet : List Char :=
  "ABCDEFGHIJKLMNOPQRSTUVWXYZabcdefghijklmnopqrstuvwxyz0123456789+/".toList

def letter (sextet : Nat) : Char := alphabet[sextet]?.getD '='

/-- One chunk of `encode`: bytes it lacks count as zero, and their letters are padding. -/
def encodeChunk (first : UInt8) (second third : Option UInt8) : List Char :=
  let triple := first.toNat * 2 ^ 16 + (second.getD 0).toNat * 2 ^ 8 + (third.getD 0).toNat
  [letter (triple / 2 ^ 18 % 64), letter (triple / 2 ^ 12 % 64),
    if second.isSome then letter (triple / 2 ^ 6 % 64) else '=',
    if third.isSome then letter (triple % 64) else '=']

def encodeChunks : Bytes → List Char
  | [] => []
  | [first] => encodeChunk first none none
  | [first, second] => encodeChunk first (some second) none
  | first :: second :: third :: rest =>
      encodeChunk first (some second) (some third) ++ encodeChunks rest

def encode (bytes : Bytes) : String := String.ofList (encodeChunks bytes)

def invalid {α : Type} : Except Error α := .error (.protocol "invalid base64 in key store")

def padding : UInt8 := '='.toUInt8

def isAsciiWhitespace (byte : UInt8) : Bool :=
  byte = 0x20 || byte = 0x09 || byte = 0x0A || byte = 0x0C || byte = 0x0D

def readSextets (index triple pads : Nat) : Bytes → Except Error (Nat × Nat)
  | [] => .ok (triple, pads)
  | byte :: rest =>
      if byte = padding then readSextets (index + 1) triple (pads + 1) rest
      else if 0 < pads then invalid
      else match (Record.asciiBytes alphabet).idxOf? byte with
        | none => invalid
        | some value => readSextets (index + 1) (triple + value * 2 ^ (18 - 6 * index)) pads rest

def decodeChunk (chunk : Bytes) : Except Error Bytes :=
  (readSextets 0 0 0 chunk).map fun (triple, pads) =>
    UInt8.ofNat (triple / 2 ^ 16) ::
      ((if pads < 2 then [UInt8.ofNat (triple / 2 ^ 8)] else []) ++
        if pads < 1 then [UInt8.ofNat triple] else [])

def decodeChunks : Bytes → Except Error Bytes
  | first :: second :: third :: fourth :: rest =>
      match decodeChunk [first, second, third, fourth] with
      | .error error => .error error
      | .ok bytes => (decodeChunks rest).map fun more => bytes ++ more
  | _ => .ok []

def decode (text : String) : Except Error Bytes :=
  let bytes := (utf8 text).filter fun byte => !isAsciiWhitespace byte
  if bytes.length % 4 ≠ 0 then invalid else decodeChunks bytes

def sextet (byte : UInt8) : Option Nat := (Record.asciiBytes alphabet).idxOf? byte

/-- Padding ends the text and is one or two signs, and the bits before it that no byte takes are
zero. -/
def canonical : Bytes → Bool
  | [_, second, third, fourth] =>
      if third = padding then second ≠ padding && (sextet second).all fun value => value % 16 = 0
      else if fourth = padding then (sextet third).all fun value => value % 4 = 0
      else true
  | _ :: _ :: _ :: fourth :: rest => fourth ≠ padding && canonical rest
  | _ => true

section Letters

/-- The literal is read once, here: evaluating it again in each proof is slow. -/
theorem alphabet_letters : alphabet =
    ['A', 'B', 'C', 'D', 'E', 'F', 'G', 'H', 'I', 'J', 'K', 'L', 'M', 'N', 'O', 'P', 'Q', 'R', 'S',
      'T', 'U', 'V', 'W', 'X', 'Y', 'Z', 'a', 'b', 'c', 'd', 'e', 'f', 'g', 'h', 'i', 'j', 'k',
      'l', 'm', 'n', 'o', 'p', 'q', 'r', 's', 't', 'u', 'v', 'w', 'x', 'y', 'z', '0', '1', '2',
      '3', '4', '5', '6', '7', '8', '9', '+', '/'] :=
  String.toList_ofList

theorem letter_sextet : ∀ value : Fin 64, (letter value).toNat < 128 ∧
    sextet (letter value).toUInt8 = some value.val ∧ (letter value).toUInt8 ≠ padding ∧
      isAsciiWhitespace (letter value).toUInt8 = false := by
  simp only [letter, sextet, alphabet_letters]
  decide +kernel

theorem padding_sextet : sextet padding = none := by
  rw [sextet, alphabet_letters]
  decide

theorem sextet_some {byte : UInt8} {value : Nat} (found : sextet byte = some value) :
    value < 64 ∧ byte = (letter value).toUInt8 := by
  obtain ⟨inside, same, -⟩ := List.idxOf?_eq_some_iff.mp found
  simp only [Record.asciiBytes, List.length_map] at inside
  rw [letter, List.getElem?_eq_getElem inside]
  refine ⟨?_, ?_⟩
  · rw [alphabet_letters] at inside
    exact inside
  · simpa [Record.asciiBytes] using same.symm

theorem readSextets_letter {byte : UInt8} {value index triple : Nat} {rest : Bytes}
    (found : sextet byte = some value) : readSextets index triple 0 (byte :: rest) =
      readSextets (index + 1) (triple + value * 2 ^ (18 - 6 * index)) 0 rest := by
  have plain : byte ≠ padding := by
    rintro rfl
    rw [padding_sextet] at found
    simp at found
  rw [sextet] at found
  simp [readSextets, plain, found]

theorem readSextets_padding {index triple pads : Nat} {rest : Bytes} :
    readSextets index triple pads (padding :: rest) =
      readSextets (index + 1) triple (pads + 1) rest := by
  simp [readSextets]

theorem readSextets_ok {byte : UInt8} {index triple pads : Nat} {rest : Bytes}
    {result : Nat × Nat} (ran : readSextets index triple pads (byte :: rest) = .ok result) :
    byte = padding ∧ readSextets (index + 1) triple (pads + 1) rest = .ok result ∨
      pads = 0 ∧ ∃ value, sextet byte = some value ∧
        readSextets (index + 1) (triple + value * 2 ^ (18 - 6 * index)) 0 rest = .ok result := by
  simp only [readSextets] at ran
  split at ran
  · rename_i sign
    exact Or.inl ⟨sign, ran⟩
  · split at ran
    · simp [invalid] at ran
    · rename_i first
      split at ran
      · simp [invalid] at ran
      · rename_i value found
        obtain rfl : pads = 0 := by omega
        exact Or.inr ⟨rfl, value, found, ran⟩

theorem decodeChunk_ok {chunk bytes : Bytes} (ran : decodeChunk chunk = .ok bytes) :
    ∃ result, readSextets 0 0 0 chunk = .ok result := by
  simp only [decodeChunk] at ran
  cases read : readSextets 0 0 0 chunk with
  | error error => simp [read, Except.map] at ran
  | ok result => exact ⟨result, rfl⟩

end Letters

section Chunks

theorem decodeChunk_full {first second third fourth : UInt8} {a b c d : Nat}
    (firstLetter : sextet first = some a) (secondLetter : sextet second = some b)
    (thirdLetter : sextet third = some c) (fourthLetter : sextet fourth = some d) :
    decodeChunk [first, second, third, fourth] = .ok [
      UInt8.ofNat ((a * 2 ^ 18 + b * 2 ^ 12 + c * 2 ^ 6 + d) / 2 ^ 16),
      UInt8.ofNat ((a * 2 ^ 18 + b * 2 ^ 12 + c * 2 ^ 6 + d) / 2 ^ 8),
      UInt8.ofNat (a * 2 ^ 18 + b * 2 ^ 12 + c * 2 ^ 6 + d)] := by
  rw [decodeChunk, readSextets_letter firstLetter, readSextets_letter secondLetter,
    readSextets_letter thirdLetter, readSextets_letter fourthLetter]
  simp [readSextets, Except.map]

theorem decodeChunk_two {first second third : UInt8} {a b c : Nat}
    (firstLetter : sextet first = some a) (secondLetter : sextet second = some b)
    (thirdLetter : sextet third = some c) :
    decodeChunk [first, second, third, padding] = .ok [
      UInt8.ofNat ((a * 2 ^ 18 + b * 2 ^ 12 + c * 2 ^ 6) / 2 ^ 16),
      UInt8.ofNat ((a * 2 ^ 18 + b * 2 ^ 12 + c * 2 ^ 6) / 2 ^ 8)] := by
  rw [decodeChunk, readSextets_letter firstLetter, readSextets_letter secondLetter,
    readSextets_letter thirdLetter, readSextets_padding]
  simp [readSextets, Except.map]

theorem decodeChunk_one {first second : UInt8} {a b : Nat}
    (firstLetter : sextet first = some a) (secondLetter : sextet second = some b) :
    decodeChunk [first, second, padding, padding] = .ok [
      UInt8.ofNat ((a * 2 ^ 18 + b * 2 ^ 12) / 2 ^ 16)] := by
  rw [decodeChunk, readSextets_letter firstLetter, readSextets_letter secondLetter,
    readSextets_padding, readSextets_padding]
  simp [readSextets, Except.map]

theorem letter_found (number : Nat) :
    sextet (letter (number % 64)).toUInt8 = some (number % 64) :=
  (letter_sextet ⟨number % 64, Nat.mod_lt _ (by decide)⟩).2.1

theorem byte_ofNat {byte : UInt8} {number : Nat} (same : number % 256 = byte.toNat) :
    UInt8.ofNat number = byte := by
  rw [← UInt8.toNat_inj, UInt8.toNat_ofNat', same]

theorem decodeChunk_encodeChunk (first : UInt8) :
    decodeChunk (Record.asciiBytes (encodeChunk first none none)) = .ok [first] ∧
    (∀ second, decodeChunk (Record.asciiBytes (encodeChunk first (some second) none)) =
      .ok [first, second]) ∧
    ∀ second third, decodeChunk (Record.asciiBytes (encodeChunk first (some second) (some third))) =
      .ok [first, second, third] := by
  have bound := first.toNat_lt
  refine ⟨?_, fun second => ?_, fun second third => ?_⟩
  · refine (decodeChunk_one (letter_found _) (letter_found _)).trans ?_
    refine congrArg Except.ok (congrArg (· :: []) (byte_ofNat ?_))
    simp
    omega
  · have other := second.toNat_lt
    refine (decodeChunk_two (letter_found _) (letter_found _) (letter_found _)).trans ?_
    refine congrArg Except.ok ?_
    rw [byte_ofNat, byte_ofNat]
    · simp
      omega
    · simp
      omega
  · have other := second.toNat_lt
    have last := third.toNat_lt
    refine (decodeChunk_full (letter_found _) (letter_found _) (letter_found _)
      (letter_found _)).trans ?_
    refine congrArg Except.ok ?_
    rw [byte_ofNat, byte_ofNat, byte_ofNat]
    · simp
      omega
    · simp
      omega
    · simp
      omega

end Chunks

section Text

theorem encodeChunk_ascii {first : UInt8} {second third : Option UInt8} :
    ∀ char ∈ encodeChunk first second third, char.toNat < 128 ∧
      isAsciiWhitespace char.toUInt8 = false := by
  have letters : ∀ number, (letter (number % 64)).toNat < 128 ∧
      isAsciiWhitespace (letter (number % 64)).toUInt8 = false := by
    intro number
    obtain ⟨ascii, _, _, plain⟩ := letter_sextet ⟨number % 64, Nat.mod_lt _ (by decide)⟩
    exact ⟨ascii, plain⟩
  have sign : '='.toNat < 128 ∧ isAsciiWhitespace '='.toUInt8 = false := by decide
  intro char member
  simp only [encodeChunk, List.mem_cons, List.not_mem_nil, or_false] at member
  rcases member with rfl | rfl | rfl | rfl
  · exact letters _
  · exact letters _
  · split
    · exact letters _
    · exact sign
  · split
    · exact letters _
    · exact sign

theorem encodeChunks_ascii (bytes : Bytes) : ∀ char ∈ encodeChunks bytes, char.toNat < 128 ∧
    isAsciiWhitespace char.toUInt8 = false := by
  fun_induction encodeChunks bytes with
  | case1 => simp
  | case2 => exact encodeChunk_ascii
  | case3 => exact encodeChunk_ascii
  | case4 first second third rest ih =>
      intro char member
      rcases List.mem_append.mp member with here | later
      · exact encodeChunk_ascii char here
      · exact ih char later

theorem utf8_encode (bytes : Bytes) :
    utf8 (encode bytes) = Record.asciiBytes (encodeChunks bytes) :=
  Record.toByteArray_ascii _ fun char member => (encodeChunks_ascii bytes char member).1

theorem length_encodeChunks (bytes : Bytes) : (encodeChunks bytes).length % 4 = 0 := by
  fun_induction encodeChunks bytes with
  | case1 => rfl
  | case2 => simp [encodeChunk]
  | case3 => simp [encodeChunk]
  | case4 first second third rest ih =>
      rw [List.length_append]
      simp only [encodeChunk, List.length_cons, List.length_nil]
      omega

theorem decodeChunks_chunk {first : UInt8} {second third : Option UInt8} {bytes rest : Bytes}
    (chunk : decodeChunk (Record.asciiBytes (encodeChunk first second third)) = .ok bytes) :
    decodeChunks (Record.asciiBytes (encodeChunk first second third) ++ rest) =
      (decodeChunks rest).map fun more => bytes ++ more := by
  simp only [encodeChunk, Record.asciiBytes, List.map_cons, List.map_nil] at chunk
  simp only [encodeChunk, Record.asciiBytes, List.map_cons, List.map_nil, List.cons_append,
    List.nil_append, decodeChunks, chunk]

theorem decodeChunks_encodeChunks (bytes : Bytes) :
    decodeChunks (Record.asciiBytes (encodeChunks bytes)) = .ok bytes := by
  fun_induction encodeChunks bytes with
  | case1 => rfl
  | case2 first =>
      rw [← List.append_nil (Record.asciiBytes _),
        decodeChunks_chunk (decodeChunk_encodeChunk first).1]
      rfl
  | case3 first second =>
      rw [← List.append_nil (Record.asciiBytes _),
        decodeChunks_chunk ((decodeChunk_encodeChunk first).2.1 second)]
      rfl
  | case4 first second third rest ih =>
      rw [Record.asciiBytes_append,
        decodeChunks_chunk ((decodeChunk_encodeChunk first).2.2 second third), ih]
      rfl

theorem decode_plain {text : String} (plain : ∀ byte ∈ utf8 text, isAsciiWhitespace byte = false) :
    decode text = if (utf8 text).length % 4 ≠ 0 then invalid else decodeChunks (utf8 text) := by
  have kept : (utf8 text).filter (fun byte => !isAsciiWhitespace byte) = utf8 text := by
    rw [List.filter_eq_self]
    intro byte member
    rw [plain byte member]
    rfl
  simp only [decode, kept]

theorem decode_encode (bytes : Bytes) : decode (encode bytes) = .ok bytes := by
  have plain : ∀ byte ∈ utf8 (encode bytes), isAsciiWhitespace byte = false := by
    rw [utf8_encode]
    intro byte member
    obtain ⟨char, listed, rfl⟩ := List.mem_map.mp member
    exact (encodeChunks_ascii bytes char listed).2
  have whole : (Record.asciiBytes (encodeChunks bytes)).length % 4 = 0 := by
    rw [Record.asciiBytes, List.length_map]
    exact length_encodeChunks bytes
  rw [decode_plain plain, utf8_encode, if_neg (not_not.mpr whole), decodeChunks_encodeChunks]

theorem encodeChunk_one {first : UInt8} {triple : Nat} (whole : first.toNat * 2 ^ 16 = triple) :
    Record.asciiBytes (encodeChunk first none none) = [
      (letter (triple / 2 ^ 18 % 64)).toUInt8, (letter (triple / 2 ^ 12 % 64)).toUInt8,
      padding, padding] := by
  subst whole
  simp [encodeChunk, Record.asciiBytes, padding]

theorem encodeChunk_two {first second : UInt8} {triple : Nat}
    (whole : first.toNat * 2 ^ 16 + second.toNat * 2 ^ 8 = triple) :
    Record.asciiBytes (encodeChunk first (some second) none) = [
      (letter (triple / 2 ^ 18 % 64)).toUInt8, (letter (triple / 2 ^ 12 % 64)).toUInt8,
      (letter (triple / 2 ^ 6 % 64)).toUInt8, padding] := by
  subst whole
  simp [encodeChunk, Record.asciiBytes, padding]

theorem encodeChunk_full {first second third : UInt8} {triple : Nat}
    (whole : first.toNat * 2 ^ 16 + second.toNat * 2 ^ 8 + third.toNat = triple) :
    Record.asciiBytes (encodeChunk first (some second) (some third)) = [
      (letter (triple / 2 ^ 18 % 64)).toUInt8, (letter (triple / 2 ^ 12 % 64)).toUInt8,
      (letter (triple / 2 ^ 6 % 64)).toUInt8, (letter (triple % 64)).toUInt8] := by
  subst whole
  rfl

theorem canonical_one {first second : UInt8} {value : Nat} (plain : second ≠ padding)
    (found : sextet second = some value) (zero : value % 16 = 0) :
    canonical [first, second, padding, padding] = true := by
  simp only [canonical, if_true, found, Option.all_some, zero, decide_true, Bool.and_true]
  exact decide_eq_true plain

theorem canonical_two {first second third : UInt8} {value : Nat} (plain : third ≠ padding)
    (found : sextet third = some value) (zero : value % 4 = 0) :
    canonical [first, second, third, padding] = true := by
  simp only [canonical, plain, if_true, if_false, found, Option.all_some, zero, decide_true]

theorem canonical_encodeChunks (bytes : Bytes) :
    canonical (Record.asciiBytes (encodeChunks bytes)) = true := by
  have letters : ∀ number, (letter (number % 64)).toUInt8 ≠ padding := fun number =>
    (letter_sextet ⟨number % 64, Nat.mod_lt _ (by decide)⟩).2.2.1
  fun_induction encodeChunks bytes with
  | case1 => rfl
  | case2 first =>
      rw [encodeChunk_one rfl]
      exact canonical_one (letters _) (letter_found _) (by omega)
  | case3 first second =>
      rw [encodeChunk_two rfl]
      exact canonical_two (letters _) (letter_found _) (by omega)
  | case4 first second third rest ih =>
      rw [Record.asciiBytes_append, encodeChunk_full rfl]
      generalize Record.asciiBytes (encodeChunks rest) = tail at ih
      cases tail with
      | nil => simp only [List.append_nil, canonical, letters, if_false]
      | cons next more =>
          simp only [List.cons_append, List.nil_append, canonical, letters, ih, ne_eq,
            not_false_eq_true, decide_true, Bool.and_self]

theorem bytes_triple {triple : Nat} (small : triple < 2 ^ 24) :
    (UInt8.ofNat (triple / 2 ^ 16)).toNat * 2 ^ 16 +
      (UInt8.ofNat (triple / 2 ^ 8)).toNat * 2 ^ 8 + (UInt8.ofNat triple).toNat = triple := by
  rw [UInt8.toNat_ofNat', UInt8.toNat_ofNat', UInt8.toNat_ofNat']
  omega

theorem encodeChunks_decodeChunk {first second third fourth : UInt8} {bytes : Bytes}
    (chunk : decodeChunk [first, second, third, fourth] = .ok bytes)
    (last : canonical [first, second, third, fourth] = true) :
    Record.asciiBytes (encodeChunks bytes) = [first, second, third, fourth] ∧
      (fourth ≠ padding → ∃ a b c, bytes = [a, b, c]) := by
  obtain ⟨result, ran⟩ := decodeChunk_ok chunk
  rcases readSextets_ok ran with ⟨rfl, later⟩ | ⟨_, a, firstLetter, later⟩
  · rcases readSextets_ok later with ⟨rfl, ends⟩ | ⟨_, _⟩
    · rcases readSextets_ok ends with ⟨rfl, _⟩ | ⟨_, _⟩
      · simp [canonical] at last
      · omega
    · omega
  obtain ⟨small, rfl⟩ := sextet_some firstLetter
  rcases readSextets_ok later with ⟨rfl, ends⟩ | ⟨_, b, secondLetter, more⟩
  · rcases readSextets_ok ends with ⟨rfl, _⟩ | ⟨_, _⟩
    · simp [canonical] at last
    · omega
  obtain ⟨secondSmall, rfl⟩ := sextet_some secondLetter
  rcases readSextets_ok more with ⟨rfl, ends⟩ | ⟨_, c, thirdLetter, ends⟩
  · rcases readSextets_ok ends with ⟨rfl, _⟩ | ⟨_, _⟩
    · obtain rfl := Except.ok.inj ((decodeChunk_one firstLetter secondLetter).symm.trans chunk)
      have zero : b % 16 = 0 := by
        simp only [canonical, secondLetter, Option.all_some, if_true, Bool.and_eq_true,
          decide_eq_true_eq] at last
        exact last.2
      refine ⟨?_, fun more => absurd rfl more⟩
      generalize whole : a * 2 ^ 18 + b * 2 ^ 12 = triple
      have same : (UInt8.ofNat (triple / 2 ^ 16)).toNat * 2 ^ 16 = triple := by
        have split := bytes_triple (show triple < 2 ^ 24 by omega)
        have middle : (UInt8.ofNat (triple / 2 ^ 8)).toNat = 0 := by
          rw [UInt8.toNat_ofNat']
          omega
        have low : (UInt8.ofNat triple).toNat = 0 := by
          rw [UInt8.toNat_ofNat']
          omega
        rwa [middle, low, zero_mul, add_zero, add_zero] at split
      have firstIndex : triple / 2 ^ 18 % 64 = a := by omega
      have secondIndex : triple / 2 ^ 12 % 64 = b := by omega
      rw [encodeChunks, encodeChunk_one same, firstIndex, secondIndex]
    · omega
  obtain ⟨thirdSmall, rfl⟩ := sextet_some thirdLetter
  rcases readSextets_ok ends with ⟨rfl, _⟩ | ⟨_, d, fourthLetter, _⟩
  · obtain rfl := Except.ok.inj ((decodeChunk_two firstLetter secondLetter thirdLetter).symm.trans
      chunk)
    have zero : c % 4 = 0 := by
      have third : (letter c).toUInt8 ≠ padding := (letter_sextet ⟨c, thirdSmall⟩).2.2.1
      simpa only [canonical, thirdLetter, third, Option.all_some, if_true, if_false,
        decide_eq_true_eq] using last
    refine ⟨?_, fun more => absurd rfl more⟩
    generalize whole : a * 2 ^ 18 + b * 2 ^ 12 + c * 2 ^ 6 = triple
    have same : (UInt8.ofNat (triple / 2 ^ 16)).toNat * 2 ^ 16 +
        (UInt8.ofNat (triple / 2 ^ 8)).toNat * 2 ^ 8 = triple := by
      have split := bytes_triple (show triple < 2 ^ 24 by omega)
      have low : (UInt8.ofNat triple).toNat = 0 := by
        rw [UInt8.toNat_ofNat']
        omega
      rwa [low, add_zero] at split
    have firstIndex : triple / 2 ^ 18 % 64 = a := by omega
    have secondIndex : triple / 2 ^ 12 % 64 = b := by omega
    have thirdIndex : triple / 2 ^ 6 % 64 = c := by omega
    rw [encodeChunks, encodeChunk_two same, firstIndex, secondIndex, thirdIndex]
  · obtain ⟨fourthSmall, rfl⟩ := sextet_some fourthLetter
    obtain rfl := Except.ok.inj ((decodeChunk_full firstLetter secondLetter thirdLetter
      fourthLetter).symm.trans chunk)
    refine ⟨?_, fun _ => ⟨_, _, _, rfl⟩⟩
    generalize whole : a * 2 ^ 18 + b * 2 ^ 12 + c * 2 ^ 6 + d = triple
    have same : (UInt8.ofNat (triple / 2 ^ 16)).toNat * 2 ^ 16 +
        (UInt8.ofNat (triple / 2 ^ 8)).toNat * 2 ^ 8 + (UInt8.ofNat triple).toNat = triple :=
      bytes_triple (by omega)
    have firstIndex : triple / 2 ^ 18 % 64 = a := by omega
    have secondIndex : triple / 2 ^ 12 % 64 = b := by omega
    have thirdIndex : triple / 2 ^ 6 % 64 = c := by omega
    have fourthIndex : triple % 64 = d := by omega
    rw [encodeChunks, encodeChunks, List.append_nil, encodeChunk_full same, firstIndex, secondIndex,
      thirdIndex, fourthIndex]

theorem readSextets_pads {index triple pads : Nat} {third fourth : UInt8} {result : Nat × Nat}
    (ran : readSextets index triple pads [third, fourth] = .ok result) (open_ended : fourth ≠ padding) :
    third ≠ padding := by
  rcases readSextets_ok ran with ⟨_, later⟩ | ⟨_, value, letter, _⟩
  · rcases readSextets_ok later with ⟨sign, _⟩ | ⟨some_pads, _⟩
    · exact absurd sign open_ended
    · omega
  · rintro rfl
    rw [padding_sextet] at letter
    simp at letter

theorem canonical_unpadded {first second third fourth : UInt8} {bytes : Bytes}
    (chunk : decodeChunk [first, second, third, fourth] = .ok bytes) (last : fourth ≠ padding) :
    canonical [first, second, third, fourth] = true := by
  obtain ⟨result, ran⟩ := decodeChunk_ok chunk
  have third_letter : third ≠ padding := by
    rcases readSextets_ok ran with ⟨_, later⟩ | ⟨_, _, _, later⟩
    · rcases readSextets_ok later with ⟨_, ends⟩ | ⟨_, _, _, ends⟩
      · exact readSextets_pads ends last
      · exact readSextets_pads ends last
    · rcases readSextets_ok later with ⟨_, ends⟩ | ⟨_, _, _, ends⟩
      · exact readSextets_pads ends last
      · exact readSextets_pads ends last
  simp only [canonical, third_letter, last, if_false]

theorem encodeChunks_decodeChunks {text bytes : Bytes} (whole : text.length % 4 = 0)
    (accepted : decodeChunks text = .ok bytes) (regular : canonical text = true) :
    Record.asciiBytes (encodeChunks bytes) = text := by
  fun_induction decodeChunks text generalizing bytes with
  | case1 => simp at accepted
  | case2 first second third fourth rest chunk read ih =>
      obtain ⟨more, ran, rfl⟩ : ∃ more, decodeChunks rest = .ok more ∧ chunk ++ more = bytes := by
        cases ran : decodeChunks rest with
        | error error => simp [ran, Except.map] at accepted
        | ok more => exact ⟨more, rfl, by simpa [ran, Except.map] using accepted⟩
      cases rest with
      | nil =>
          obtain rfl := Except.ok.inj ran
          rw [List.append_nil]
          exact (encodeChunks_decodeChunk read regular).1
      | cons next others =>
          simp only [canonical, Bool.and_eq_true, decide_eq_true_eq] at regular
          obtain ⟨same, full⟩ := encodeChunks_decodeChunk read (canonical_unpadded read regular.1)
          obtain ⟨a, b, c, rfl⟩ := full regular.1
          have tail := ih (by simp only [List.length_cons] at whole ⊢; omega) ran regular.2
          simp only [encodeChunks, List.append_nil] at same
          simp only [List.cons_append, List.nil_append, encodeChunks, Record.asciiBytes_append, same,
            tail]
  | case3 text short =>
      obtain rfl := Except.ok.inj accepted
      match text, short, whole with
      | [], _, _ => rfl
      | _ :: _ :: _ :: _ :: _, short, _ => exact absurd rfl (short _ _ _ _ _)

/-- Whatever is encoded is decoded again. An accepted text without whitespace is the encoding of
its bytes exactly when it is canonical. -/
theorem decode_bijective (bytes : Bytes) (text : String)
    (plain : ∀ byte ∈ utf8 text, isAsciiWhitespace byte = false) :
    decode (encode bytes) = .ok bytes ∧ ∀ decoded, decode text = .ok decoded →
      (encode decoded = text ↔ canonical (utf8 text) = true) := by
  refine ⟨decode_encode bytes, fun decoded accepted => ⟨?_, fun regular => ?_⟩⟩
  · rintro rfl
    rw [utf8_encode]
    exact canonical_encodeChunks decoded
  · rw [decode_plain plain] at accepted
    split at accepted
    · simp [invalid] at accepted
    · rename_i whole
      apply utf8_injective
      rw [utf8_encode]
      exact encodeChunks_decodeChunks (not_not.mp whole) accepted regular

theorem decode_bijective_hi : decode (encode [104, 105]) = .ok [104, 105] ∧
    (encode [104, 105] = "aGk=" ↔ canonical (utf8 "aGk=") = true) := by
  have plain : ∀ byte ∈ utf8 "aGk=", isAsciiWhitespace byte = false := by decide +kernel
  have accepted : decode "aGk=" = .ok [104, 105] := by decide +kernel
  obtain ⟨back, canonical⟩ := decode_bijective [104, 105] "aGk=" plain
  exact ⟨back, canonical _ accepted⟩

theorem decode_malformed :
    (decode "aGl=" = .ok [104, 105] ∧ encode [104, 105] ≠ "aGl=") ∧
    (decode "aA==aA==" = .ok [104, 104] ∧ encode [104, 104] ≠ "aA==aA==") ∧
    decode "====" = .ok [0] ∧ encode [0] ≠ "====" := by
  decide +kernel

end Text

end Keystore

end LibreSync
