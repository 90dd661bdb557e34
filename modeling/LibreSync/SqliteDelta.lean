import LibreSync.Base
import LibreSync.Lib.Overlay

/-! The page delta of a database file: computed, encoded, decoded and applied. -/

namespace LibreSync

structure PageDelta where
  index : Nat
  bytes : Bytes
deriving DecidableEq

structure SqliteDelta where
  pageSize : Nat
  fileSize : Nat
  pages : List PageDelta
deriving DecidableEq

/-- `LSD1`. -/
def sqliteDeltaMagic : Bytes := [0x4C, 0x53, 0x44, 0x31]

def PageDelta.encode (page : PageDelta) : Bytes :=
  Overlay.toBytes 4 page.index ++ Overlay.toBytes 4 page.bytes.length ++ page.bytes

def SqliteDelta.encoded (delta : SqliteDelta) : Bytes :=
  sqliteDeltaMagic ++ Overlay.toBytes 4 delta.pageSize ++ Overlay.toBytes 8 delta.fileSize ++
    Overlay.toBytes 4 delta.pages.length ++ delta.pages.flatMap PageDelta.encode

def encodeSqliteDelta (delta : SqliteDelta) : Except Error Bytes :=
  if 2 ^ 32 ≤ delta.pages.length then .error (.protocol "sqlite delta has too many pages")
  else if delta.pages.any fun page => 2 ^ 32 ≤ page.bytes.length then
    .error (.protocol "sqlite delta page is too large")
  else .ok delta.encoded

def readDeltaBytes (count : Nat) (rest : Bytes) : Except Error (Bytes × Bytes) :=
  if count ≤ rest.length then .ok (rest.take count, rest.drop count)
  else .error (.protocol "truncated sqlite delta")

def readDeltaNumber (size : Nat) (rest : Bytes) : Except Error (Nat × Bytes) :=
  (readDeltaBytes size rest).map fun read => (Overlay.fromBytes read.1, read.2)

def decodePages (pageSize fileSize : Nat) : Nat → Bytes → Except Error (List PageDelta × Bytes)
  | 0, rest => .ok ([], rest)
  | count + 1, rest =>
      match readDeltaNumber 4 rest with
      | .error error => .error error
      | .ok (index, rest) =>
          match readDeltaNumber 4 rest with
          | .error error => .error error
          | .ok (length, rest) =>
              if pageSize < length then
                .error (.protocol "sqlite delta page exceeds page size")
              else if u64Max < index * pageSize + length then
                .error (.protocol "sqlite delta page offset overflow")
              else if fileSize < index * pageSize + length then
                .error (.protocol "sqlite delta page exceeds file size")
              else match readDeltaBytes length rest with
                | .error error => .error error
                | .ok (bytes, rest) =>
                    (decodePages pageSize fileSize count rest).map fun (pages, rest) =>
                      ({ index, bytes } :: pages, rest)

def decodeSqliteDelta (bytes : Bytes) : Except Error SqliteDelta :=
  match readDeltaBytes 4 bytes with
  | .error error => .error error
  | .ok (magic, rest) =>
      if magic ≠ sqliteDeltaMagic then .error (.protocol "invalid sqlite delta encoding")
      else match readDeltaNumber 4 rest with
        | .error error => .error error
        | .ok (pageSize, rest) =>
            match readDeltaNumber 8 rest with
            | .error error => .error error
            | .ok (fileSize, rest) =>
                match readDeltaNumber 4 rest with
                | .error error => .error error
                | .ok (count, rest) =>
                    if pageSize = 0 then
                      .error (.protocol "sqlite delta page size must be nonzero")
                    else if rest.length / 8 < count then
                      .error (.protocol "sqlite delta page count exceeds encoded pages")
                    else match decodePages pageSize fileSize count rest with
                      | .error error => .error error
                      | .ok (pages, rest) =>
                          if rest ≠ [] then .error (.protocol "trailing sqlite delta bytes")
                          else .ok { pageSize, fileSize, pages }

def pageOf (file : Bytes) (pageSize index : Nat) : Bytes :=
  (file.drop (index * pageSize)).take pageSize

/-- `compute_page_delta`; the page size and the indices are cast to `u32`. -/
def computePageDelta (base current : Bytes) (pageSize : Nat) : SqliteDelta where
  pageSize := pageSize % 2 ^ 32
  fileSize := current.length % 2 ^ 64
  pages := (List.range ((current.length + pageSize - 1) / pageSize)).filterMap fun index =>
    if pageOf base pageSize index ≠ pageOf current pageSize index then some {
      index := index % 2 ^ 32
      bytes := pageOf current pageSize index }
    else none

def SqliteDelta.segments (delta : SqliteDelta) : List (Overlay.Segment UInt8) :=
  delta.pages.map fun page => { start := page.index * delta.pageSize, items := page.bytes }

/-- `isize::MAX`, the most bytes that a `Vec` holds. -/
def isizeMax : Nat := 2 ^ 63 - 1

def SqliteDelta.output (delta : SqliteDelta) (base : Bytes) : Bytes :=
  Overlay.writeAll 0 (Overlay.resize 0 delta.fileSize base) delta.segments

/-- There is no output where `Vec::resize` panics with a capacity overflow. -/
def applyPageDelta (base : Bytes) (delta : SqliteDelta) : Option Bytes :=
  if isizeMax < delta.fileSize ∨ delta.segments.any (fun segment => isizeMax < segment.stop) then none
  else some (delta.output base)

structure SqliteDelta.Valid (delta : SqliteDelta) : Prop where
  paged : 0 < delta.pageSize
  page_size : delta.pageSize < 2 ^ 32
  file_size : delta.fileSize < 2 ^ 64
  count : delta.pages.length < 2 ^ 32
  pages : ∀ page ∈ delta.pages, page.index < 2 ^ 32 ∧ page.bytes.length ≤ delta.pageSize ∧
    page.index * delta.pageSize + page.bytes.length ≤ delta.fileSize

theorem readDeltaBytes_append (bytes rest : Bytes) :
    readDeltaBytes bytes.length (bytes ++ rest) = .ok (bytes, rest) := by
  simp [readDeltaBytes]

theorem readDeltaNumber_append {size value : Nat} (small : value < 256 ^ size) (rest : Bytes) :
    readDeltaNumber size (Overlay.toBytes size value ++ rest) = .ok (value, rest) := by
  have read := readDeltaBytes_append (Overlay.toBytes size value) rest
  rw [Overlay.length_toBytes] at read
  simp only [readDeltaNumber, read, Except.map, Overlay.fromBytes_toBytes small]

theorem decodePages_encode {pageSize fileSize : Nat} (paged : pageSize < 2 ^ 32)
    (sized : fileSize < 2 ^ 64) {pages : List PageDelta}
    (valid : ∀ page ∈ pages, page.index < 2 ^ 32 ∧ page.bytes.length ≤ pageSize ∧
      page.index * pageSize + page.bytes.length ≤ fileSize) (rest : Bytes) :
    decodePages pageSize fileSize pages.length (pages.flatMap PageDelta.encode ++ rest) =
      .ok (pages, rest) := by
  induction pages with
  | nil => rfl
  | cons page pages ih =>
      obtain ⟨index, narrow, inside⟩ := valid page List.mem_cons_self
      have later := ih fun other member => valid other (List.mem_cons_of_mem _ member)
      have below : page.index * pageSize + page.bytes.length ≤ u64Max := by
        have : u64Max = 2 ^ 64 - 1 := rfl
        omega
      have length : page.bytes.length < 256 ^ 4 := by
        norm_num
        omega
      simp only [List.length_cons, List.flatMap_cons, PageDelta.encode, List.append_assoc, decodePages]
      rw [readDeltaNumber_append (by norm_num; omega)]
      simp only
      rw [readDeltaNumber_append length]
      simp only
      rw [if_neg (not_lt.mpr narrow), if_neg (not_lt.mpr below), if_neg (not_lt.mpr inside),
        readDeltaBytes_append]
      simp only [later, Except.map]

theorem length_encode_pages (pages : List PageDelta) :
    8 * pages.length ≤ (pages.flatMap PageDelta.encode).length := by
  induction pages with
  | nil => simp
  | cons page pages ih =>
      simp only [List.flatMap_cons, List.length_append, List.length_cons, PageDelta.encode,
        Overlay.length_toBytes]
      omega

theorem length_encoded (delta : SqliteDelta) :
    delta.encoded.length = 20 + (delta.pages.flatMap PageDelta.encode).length := by
  simp only [SqliteDelta.encoded, List.length_append, Overlay.length_toBytes, sqliteDeltaMagic,
    List.length_cons, List.length_nil]

theorem SqliteDelta.Valid.encodes {delta : SqliteDelta} (valid : delta.Valid) :
    encodeSqliteDelta delta = .ok delta.encoded := by
  have short : delta.pages.any (fun page => 2 ^ 32 ≤ page.bytes.length) = false := by
    rw [List.any_eq_false]
    intro page member
    have narrow := (valid.pages page member).2.1
    have bounded := valid.page_size
    simp only [decide_eq_true_eq, not_le]
    omega
  rw [encodeSqliteDelta, if_neg (not_le.mpr valid.count), short]
  simp

theorem SqliteDelta.Valid.decodes {delta : SqliteDelta} (valid : delta.Valid) :
    decodeSqliteDelta delta.encoded = .ok delta := by
  have paged := valid.page_size
  have sized := valid.file_size
  have counted := valid.count
  have room := length_encode_pages delta.pages
  have magic := readDeltaBytes_append sqliteDeltaMagic
  simp only [show sqliteDeltaMagic.length = 4 from rfl] at magic
  have pages := decodePages_encode paged sized valid.pages []
  rw [List.append_nil] at pages
  simp only [SqliteDelta.encoded, List.append_assoc, decodeSqliteDelta, magic]
  rw [if_neg (not_not.mpr rfl), readDeltaNumber_append (by norm_num; omega)]
  simp only
  rw [readDeltaNumber_append (by norm_num; omega)]
  simp only
  rw [readDeltaNumber_append (by norm_num; omega)]
  simp only
  rw [if_neg valid.paged.ne', if_neg (by omega), pages]
  simp

def SqliteDelta.Within (delta : SqliteDelta) : Prop :=
  ∀ segment ∈ delta.segments, segment.stop ≤ delta.fileSize

theorem readDeltaBytes_ok {count : Nat} {rest bytes later : Bytes}
    (read : readDeltaBytes count rest = .ok (bytes, later)) :
    bytes.length = count ∧ rest = bytes ++ later := by
  rw [readDeltaBytes] at read
  split at read
  · rename_i enough
    simp only [Except.ok.injEq, Prod.mk.injEq] at read
    obtain ⟨rfl, rfl⟩ := read
    refine ⟨List.length_take_of_le enough, (List.take_append_drop _ _).symm⟩
  · simp at read

theorem readDeltaNumber_ok {size value : Nat} {rest later : Bytes}
    (read : readDeltaNumber size rest = .ok (value, later)) :
    value < 256 ^ size ∧ rest = Overlay.toBytes size value ++ later := by
  rw [readDeltaNumber] at read
  cases taken : readDeltaBytes size rest with
  | error error => simp [taken, Except.map] at read
  | ok result =>
      obtain ⟨bytes, left⟩ := result
      obtain ⟨rfl, rfl⟩ := readDeltaBytes_ok taken
      simp only [taken, Except.map, Except.ok.injEq, Prod.mk.injEq] at read
      obtain ⟨rfl, rfl⟩ := read
      exact ⟨Overlay.fromBytes_lt bytes, by rw [Overlay.toBytes_fromBytes]⟩

theorem decodePages_ok {pageSize fileSize count : Nat} {rest left : Bytes}
    {pages : List PageDelta} (decoded : decodePages pageSize fileSize count rest = .ok (pages, left)) :
    pages.length = count ∧ rest = pages.flatMap PageDelta.encode ++ left ∧
      ∀ page ∈ pages, page.index < 2 ^ 32 ∧ page.bytes.length ≤ pageSize ∧
        page.index * pageSize + page.bytes.length ≤ fileSize := by
  induction count generalizing rest pages with
  | zero =>
      simp only [decodePages, Except.ok.injEq, Prod.mk.injEq] at decoded
      obtain ⟨rfl, rfl⟩ := decoded
      simp
  | succ count ih =>
      rw [decodePages] at decoded
      cases first : readDeltaNumber 4 rest with
      | error error => simp [first] at decoded
      | ok indexed =>
          obtain ⟨index, afterIndex⟩ := indexed
          cases second : readDeltaNumber 4 afterIndex with
          | error error => simp [first, second] at decoded
          | ok measured =>
              obtain ⟨length, afterLength⟩ := measured
              simp only [first, second] at decoded
              obtain ⟨indexSmall, rfl⟩ := readDeltaNumber_ok first
              obtain ⟨_, rfl⟩ := readDeltaNumber_ok second
              split at decoded
              · simp at decoded
              · rename_i narrow
                split at decoded
                · simp at decoded
                · split at decoded
                  · simp at decoded
                  · rename_i inside
                    cases third : readDeltaBytes length afterLength with
                    | error error => simp [third] at decoded
                    | ok copied =>
                        obtain ⟨bytes, later⟩ := copied
                        obtain ⟨rfl, rfl⟩ := readDeltaBytes_ok third
                        cases more : decodePages pageSize fileSize count later with
                        | error error => simp [third, more, Except.map] at decoded
                        | ok result =>
                            obtain ⟨tail, end_⟩ := result
                            simp only [third, more, Except.map, Except.ok.injEq,
                              Prod.mk.injEq] at decoded
                            obtain ⟨rfl, rfl⟩ := decoded
                            obtain ⟨rfl, rfl, valid⟩ := ih more
                            refine ⟨rfl, ?_, ?_⟩
                            · simp only [List.flatMap_cons, PageDelta.encode, List.append_assoc]
                            · refine List.forall_mem_cons.mpr ⟨?_, valid⟩
                              norm_num at indexSmall
                              exact ⟨by omega, not_lt.mp narrow, not_lt.mp inside⟩

theorem decodeSqliteDelta_ok {bytes : Bytes} {delta : SqliteDelta}
    (decoded : decodeSqliteDelta bytes = .ok delta) : delta.Valid ∧ bytes = delta.encoded := by
  rw [decodeSqliteDelta] at decoded
  cases first : readDeltaBytes 4 bytes with
  | error error => simp [first] at decoded
  | ok started =>
      obtain ⟨magic, afterMagic⟩ := started
      obtain ⟨_, rfl⟩ := readDeltaBytes_ok first
      simp only [first] at decoded
      split at decoded
      · simp at decoded
      · rename_i known
        obtain rfl := not_not.mp known
        cases second : readDeltaNumber 4 afterMagic with
        | error error => simp [second] at decoded
        | ok paged =>
            obtain ⟨pageSize, afterPage⟩ := paged
            obtain ⟨pageSmall, rfl⟩ := readDeltaNumber_ok second
            cases third : readDeltaNumber 8 afterPage with
            | error error => simp [second, third] at decoded
            | ok sized =>
                obtain ⟨fileSize, afterFile⟩ := sized
                obtain ⟨fileSmall, rfl⟩ := readDeltaNumber_ok third
                cases fourth : readDeltaNumber 4 afterFile with
                | error error => simp [second, third, fourth] at decoded
                | ok counted =>
                    obtain ⟨count, rest⟩ := counted
                    obtain ⟨countSmall, rfl⟩ := readDeltaNumber_ok fourth
                    simp only [second, third, fourth] at decoded
                    norm_num at pageSmall fileSmall countSmall
                    split at decoded
                    · simp at decoded
                    · rename_i nonzero
                      split at decoded
                      · simp at decoded
                      · cases fifth : decodePages pageSize fileSize count rest with
                        | error error => simp [fifth] at decoded
                        | ok listed =>
                            obtain ⟨pages, left⟩ := listed
                            obtain ⟨rfl, rfl, valid⟩ := decodePages_ok fifth
                            simp only [fifth] at decoded
                            split at decoded
                            · simp at decoded
                            · rename_i finished
                              obtain rfl := not_not.mp finished
                              obtain rfl := Except.ok.inj decoded
                              refine ⟨⟨by simp only; omega, by simp only; omega, by simp only; omega,
                                by simp only; omega, valid⟩, ?_⟩
                              simp only [SqliteDelta.encoded, List.append_assoc, List.append_nil]

theorem SqliteDelta.Valid.within {delta : SqliteDelta} (valid : delta.Valid) : delta.Within := by
  intro segment member
  simp only [SqliteDelta.segments, List.mem_map] at member
  obtain ⟨page, listed, rfl⟩ := member
  exact (valid.pages page listed).2.2

theorem decodeSqliteDelta_within {bytes : Bytes} {delta : SqliteDelta}
    (decoded : decodeSqliteDelta bytes = .ok delta) : delta.Within :=
  (decodeSqliteDelta_ok decoded).1.within

theorem applyPageDelta_within {delta : SqliteDelta} (within : delta.Within) (base : Bytes) :
    applyPageDelta base delta =
      if isizeMax < delta.fileSize then none else some (delta.output base) := by
  rw [applyPageDelta]
  by_cases large : isizeMax < delta.fileSize
  · rw [if_pos large, if_pos (Or.inl large)]
  · rw [if_neg large, if_neg]
    simp only [List.any_eq_true, decide_eq_true_eq, not_or, not_exists, not_and, not_lt] at large ⊢
    exact ⟨large, fun segment member => (within segment member).trans large⟩

theorem length_output {delta : SqliteDelta} (within : delta.Within) (base : Bytes) :
    (delta.output base).length = delta.fileSize := by
  rw [SqliteDelta.output, Overlay.length_writeAll]
  · exact Overlay.length_resize _
  · rw [Overlay.length_resize]
    exact within

theorem getElem?_output {delta : SqliteDelta} (within : delta.Within) (base : Bytes)
    (position : Nat) : (delta.output base)[position]? =
      (Overlay.latest delta.segments position).or
        (Overlay.resize 0 delta.fileSize base)[position]? := by
  rw [SqliteDelta.output, Overlay.getElem?_writeAll]
  rw [Overlay.length_resize]
  exact within

def SqliteDelta.Repeats (delta : SqliteDelta) (file : Bytes) : Prop :=
  delta.fileSize = file.length ∧ delta.fileSize ≤ isizeMax ∧ ∀ (position : Nat) (byte : UInt8),
    Overlay.latest delta.segments position = some byte → file[position]? = some byte

theorem applyPageDelta_self_iff {delta : SqliteDelta} (within : delta.Within) (file : Bytes) :
    applyPageDelta file delta = some file ↔ delta.Repeats file := by
  rw [applyPageDelta_within within, Option.ite_none_left_eq_some, Option.some.injEq, not_lt]
  constructor
  · rintro ⟨fits, same⟩
    have size := length_output within file
    rw [same] at size
    refine ⟨size.symm, fits, fun position byte found => ?_⟩
    rw [← same, getElem?_output within, found]
    rfl
  · rintro ⟨size, fits, repeated⟩
    refine ⟨fits, List.ext_getElem? fun position => ?_⟩
    rw [getElem?_output within, size, Overlay.resize_self]
    cases found : Overlay.latest delta.segments position with
    | none => rfl
    | some byte => exact (repeated position byte found).symm

section Pages

variable {base current : Bytes} {pageSize : Nat}

theorem getElem?_pageOf (file : Bytes) (pageSize index offset : Nat) :
    (pageOf file pageSize index)[offset]? =
      if offset < pageSize then file[index * pageSize + offset]? else none := by
  rw [pageOf, List.getElem?_take]
  split
  · rw [List.getElem?_drop]
  · rfl

theorem getElem?_page (file : Bytes) (paged : 0 < pageSize) (position : Nat) :
    file[position]? = (pageOf file pageSize (position / pageSize))[position % pageSize]? := by
  rw [getElem?_pageOf, if_pos (Nat.mod_lt _ paged)]
  congr 1
  rw [Nat.mul_comm]
  exact (Nat.div_add_mod position pageSize).symm

theorem page_lt (paged : 0 < pageSize) {position : Nat} (inside : position < current.length) :
    position / pageSize < (current.length + pageSize - 1) / pageSize := by
  have below := Nat.div_mul_le_self position pageSize
  rw [Nat.lt_iff_add_one_le, Nat.le_div_iff_mul_le paged, Nat.add_mul, Nat.one_mul]
  omega

theorem pages_nil : (computePageDelta base current pageSize).pages = [] ↔
    ∀ index < (current.length + pageSize - 1) / pageSize,
      pageOf base pageSize index = pageOf current pageSize index := by
  simp only [computePageDelta, List.filterMap_eq_nil_iff, List.mem_range]
  refine forall₂_congr fun index _ => ?_
  split
  · rename_i differs
    simpa using differs
  · rename_i same
    simpa using same

theorem pages_nil_iff (paged : 0 < pageSize) :
    (computePageDelta base current pageSize).pages = [] ↔
      current = base ∨ (current <+: base ∧ pageSize ∣ current.length) := by
  rw [pages_nil]
  constructor
  · intro same
    have agrees : ∀ position < current.length, base[position]? = current[position]? := by
      intro position inside
      rw [getElem?_page base paged, getElem?_page current paged, same _ (page_lt paged inside)]
    have short : current.length ≤ base.length := by
      by_contra longer
      have last := agrees base.length (by omega)
      rw [List.getElem?_eq_none le_rfl, List.getElem?_eq_getElem (by omega)] at last
      simp at last
    have start : current <+: base := by
      rw [List.prefix_iff_getElem?]
      intro position inside
      rw [agrees position inside, List.getElem?_eq_getElem inside]
    by_cases whole : pageSize ∣ current.length
    · exact Or.inr ⟨start, whole⟩
    · refine Or.inl (start.eq_of_length_le ?_)
      by_contra longer
      have partly : 0 < current.length % pageSize := by
        rw [Nat.pos_iff_ne_zero]
        exact fun none => whole (Nat.dvd_of_mod_eq_zero none)
      have divided := Nat.div_add_mod current.length pageSize
      have last : current.length - 1 < current.length := by omega
      have inside := page_lt paged last
      have index : (current.length - 1) / pageSize = current.length / pageSize := by
        rw [Nat.div_eq_iff paged]
        have := Nat.mod_lt current.length paged
        constructor
        · rw [Nat.mul_comm] at divided
          omega
        · rw [Nat.mul_comm] at divided
          omega
      have next := congrArg (·[current.length % pageSize]?)
        (same _ (index ▸ inside))
      simp only [getElem?_pageOf, if_pos (Nat.mod_lt current.length paged)] at next
      rw [Nat.mul_comm, divided, List.getElem?_eq_none le_rfl,
        List.getElem?_eq_getElem (by omega)] at next
      simp at next
  · rintro (rfl | ⟨start, count, whole⟩) index below
    · rfl
    · refine List.ext_getElem? fun offset => ?_
      rw [getElem?_pageOf, getElem?_pageOf]
      split
      · rename_i within
        have inside : index * pageSize + offset < current.length := by
          have rows : index + 1 ≤ count := by
            rw [whole, Nat.mul_comm, Nat.lt_iff_add_one_le, Nat.le_div_iff_mul_le paged] at below
            have next : (index + 1) * pageSize < (count + 1) * pageSize := by
              rw [Nat.add_mul count, Nat.one_mul]
              omega
            exact Nat.lt_succ_iff.mp (Nat.lt_of_mul_lt_mul_right next)
          have := Nat.mul_le_mul_right pageSize rows
          rw [Nat.add_mul, Nat.one_mul, Nat.mul_comm count] at this
          omega
        rw [List.getElem?_eq_getElem inside]
        exact List.prefix_iff_getElem?.mp start _ inside
      · rfl

structure Fits (current : Bytes) (pageSize : Nat) : Prop where
  paged : 0 < pageSize
  narrow : pageSize < 2 ^ 32
  short : current.length ≤ (2 ^ 32 - 1) * pageSize

variable (fits : Fits current pageSize)

include fits

theorem Fits.index {index : Nat} (below : index < (current.length + pageSize - 1) / pageSize) :
    index + 1 < 2 ^ 32 ∧ index * pageSize < current.length := by
  have paged := fits.paged
  have short := fits.short
  rw [Nat.lt_iff_add_one_le, Nat.le_div_iff_mul_le paged, Nat.add_mul, Nat.one_mul] at below
  have starts : index * pageSize < current.length := by omega
  refine ⟨?_, starts⟩
  have rows := Nat.lt_of_mul_lt_mul_right (starts.trans_le short)
  omega

theorem Fits.length : current.length < 2 ^ 64 := by
  have narrow := fits.narrow
  have short := fits.short
  have room := Nat.mul_le_mul_left (2 ^ 32 - 1) narrow.le
  omega

theorem Fits.listed {page : PageDelta} (member : page ∈ (computePageDelta base current pageSize).pages) :
    ∃ index < (current.length + pageSize - 1) / pageSize,
      pageOf base pageSize index ≠ pageOf current pageSize index ∧
      page = { index := index, bytes := pageOf current pageSize index } := by
  simp only [computePageDelta, List.mem_filterMap, List.mem_range] at member
  obtain ⟨index, below, found⟩ := member
  split at found
  · rename_i differs
    have small := (fits.index below).1
    rw [Nat.mod_eq_of_lt (by omega)] at found
    exact ⟨index, below, differs, (Option.some.inj found).symm⟩
  · simp at found

variable (base) in
theorem Fits.valid : (computePageDelta base current pageSize).Valid := by
  have narrow := fits.narrow
  have length := fits.length
  have page : (computePageDelta base current pageSize).pageSize = pageSize := Nat.mod_eq_of_lt narrow
  have file : (computePageDelta base current pageSize).fileSize = current.length := Nat.mod_eq_of_lt length
  refine ⟨?_, ?_, ?_, ?_, ?_⟩
  · rw [page]
    exact fits.paged
  · rw [page]
    exact narrow
  · rw [file]
    exact length
  · have rows : (current.length + pageSize - 1) / pageSize < 2 ^ 32 := by
      have short := fits.short
      rw [Nat.div_lt_iff_lt_mul fits.paged]
      have := fits.paged
      have : 2 ^ 32 * pageSize = (2 ^ 32 - 1) * pageSize + pageSize := by omega
      omega
    refine lt_of_le_of_lt ((List.length_filterMap_le _ _).trans ?_) rows
    rw [List.length_range]
  · intro found member
    obtain ⟨index, below, _, rfl⟩ := fits.listed member
    obtain ⟨small, starts⟩ := fits.index below
    rw [page, file]
    simp only [pageOf, List.length_take, List.length_drop]
    refine ⟨by omega, by omega, by omega⟩

theorem Fits.segment {segment : Overlay.Segment UInt8}
    (member : segment ∈ (computePageDelta base current pageSize).segments) :
    ∃ index < (current.length + pageSize - 1) / pageSize,
      pageOf base pageSize index ≠ pageOf current pageSize index ∧
      segment = { start := index * pageSize, items := pageOf current pageSize index } := by
  simp only [SqliteDelta.segments, List.mem_map] at member
  obtain ⟨page, listed, rfl⟩ := member
  obtain ⟨index, below, differs, rfl⟩ := fits.listed listed
  refine ⟨index, below, differs, ?_⟩
  simp only [computePageDelta, Nat.mod_eq_of_lt fits.narrow]

theorem Fits.held {segment : Overlay.Segment UInt8} {position : Nat} {byte : UInt8}
    (member : segment ∈ (computePageDelta base current pageSize).segments)
    (found : segment.at position = some byte) : current[position]? = some byte := by
  obtain ⟨index, _, _, rfl⟩ := fits.segment member
  simp only [Overlay.Segment.at] at found
  split at found
  · rename_i after
    rw [getElem?_pageOf] at found
    split at found
    · rwa [Nat.add_sub_cancel' after] at found
    · simp at found
  · simp at found

theorem Fits.covered {position : Nat} (inside : position < current.length)
    (missing : ∀ segment ∈ (computePageDelta base current pageSize).segments,
      segment.at position = none) : base[position]? = current[position]? := by
  have paged := fits.paged
  rw [getElem?_page base paged, getElem?_page current paged]
  by_contra differs
  have below := page_lt paged inside
  have small := (fits.index below).1
  have listed : { index := position / pageSize, bytes := pageOf current pageSize (position / pageSize) } ∈
      (computePageDelta base current pageSize).pages := by
    simp only [computePageDelta, List.mem_filterMap, List.mem_range]
    refine ⟨position / pageSize, below, ?_⟩
    rw [if_pos, Nat.mod_eq_of_lt (by omega)]
    intro same
    rw [same] at differs
    exact differs rfl
  have here := missing _ (List.mem_map_of_mem listed)
  have start : position / pageSize * pageSize ≤ position := Nat.div_mul_le_self _ _
  simp only [Overlay.Segment.at, computePageDelta, Nat.mod_eq_of_lt fits.narrow, if_pos start] at here
  have offset : position - position / pageSize * pageSize = position % pageSize := by
    rw [Nat.mul_comm]
    exact (Nat.mod_eq_sub_mul_div).symm
  rw [offset, ← getElem?_page current paged, List.getElem?_eq_getElem inside] at here
  simp at here

theorem Fits.applied (held : current.length ≤ isizeMax) :
    applyPageDelta base (computePageDelta base current pageSize) = some current := by
  have file : (computePageDelta base current pageSize).fileSize = current.length :=
    Nat.mod_eq_of_lt fits.length
  rw [applyPageDelta_within (fits.valid base).within, file, if_neg (not_lt.mpr held),
    Option.some.injEq]
  refine List.ext_getElem? fun position => ?_
  rw [getElem?_output (fits.valid base).within, file, Overlay.getElem?_resize]
  cases found : Overlay.latest (computePageDelta base current pageSize).segments position with
  | some byte =>
      obtain ⟨segment, member, held⟩ := Overlay.latest_some found
      rw [fits.held member held]
      rfl
  | none =>
      rw [Option.none_or]
      split
      · rename_i inside
        rw [fits.covered inside (Overlay.latest_none found), List.getElem?_eq_getElem inside]
        rfl
      · rename_i outside
        rw [List.getElem?_eq_none (not_lt.mp outside)]

end Pages

/-- Every page ends within the output, whose bytes are those of the last page over them, of the
base, or zero. -/
structure SqliteDelta.Contained (delta : SqliteDelta) (base output : Bytes) : Prop where
  inside : ∀ segment ∈ delta.segments, segment.stop ≤ output.length
  bytes : ∀ position, output[position]? = if position < delta.fileSize then
    some ((Overlay.latest delta.segments position).getD (base[position]?.getD 0)) else none

theorem SqliteDelta.Within.contained {delta : SqliteDelta} (within : delta.Within) (base : Bytes) :
    delta.Contained base (delta.output base) where
  inside := by
    rw [length_output within]
    exact within
  bytes := by
    intro position
    have length := length_output within base
    split
    · rename_i inside
      rw [getElem?_output within, Overlay.getElem?_resize, if_pos inside]
      cases Overlay.latest delta.segments position <;> rfl
    · rename_i outside
      exact List.getElem?_eq_none (by omega)

def SqliteDelta.Applies (delta : SqliteDelta) (base : Bytes) : Prop :=
  ∃ output, applyPageDelta base delta = some output ∧ output.length = delta.fileSize ∧
    delta.Contained base output

/-- A computed delta is decoded from its encoding, what is decoded encodes to the same bytes, and
it can be applied exactly if a `Vec` holds its file. -/
theorem sqliteDelta_codec (base current bytes : Bytes) (pageSize : Nat) (delta : SqliteDelta) :
    (512 ≤ pageSize → pageSize < 2 ^ 32 → (current.length + pageSize - 1) / pageSize < 2 ^ 32 →
      ∃ encoded, encodeSqliteDelta (computePageDelta base current pageSize) = .ok encoded ∧
        decodeSqliteDelta encoded = .ok (computePageDelta base current pageSize)) ∧
      (decodeSqliteDelta bytes = .ok delta → encodeSqliteDelta delta = .ok bytes ∧
        ∀ base, delta.Applies base ↔ delta.fileSize ≤ isizeMax) := by
  refine ⟨fun sector narrow short => ?_, fun decoded => ?_⟩
  · have paged : 0 < pageSize := by omega
    have rows : current.length ≤ (2 ^ 32 - 1) * pageSize := by
      rw [Nat.div_lt_iff_lt_mul paged] at short
      have whole : 2 ^ 32 * pageSize = (2 ^ 32 - 1) * pageSize + pageSize := by omega
      omega
    have fits : Fits current pageSize := ⟨paged, narrow, rows⟩
    have valid := fits.valid base
    exact ⟨_, valid.encodes, valid.decodes⟩
  · obtain ⟨valid, rfl⟩ := decodeSqliteDelta_ok decoded
    have within := valid.within
    refine ⟨valid.encodes, fun base => ?_⟩
    rw [SqliteDelta.Applies, applyPageDelta_within within]
    constructor
    · rintro ⟨output, applied, -⟩
      exact not_lt.mp (Option.ite_none_left_eq_some.mp applied).1
    · intro held
      exact ⟨delta.output base, if_neg (not_lt.mpr held), length_output within base,
        within.contained base⟩

def overlappingDelta : SqliteDelta where
  pageSize := 2
  fileSize := 3
  pages := [⟨0, [1, 2]⟩, ⟨0, [3, 4]⟩, ⟨1, [5]⟩]

theorem sqliteDelta_codec_overlapping :
    (∃ encoded, encodeSqliteDelta (computePageDelta [] (List.replicate 513 7) 512) = .ok encoded ∧
      decodeSqliteDelta encoded = .ok (computePageDelta [] (List.replicate 513 7) 512)) ∧
      encodeSqliteDelta overlappingDelta = .ok overlappingDelta.encoded ∧
      overlappingDelta.Applies [9, 9, 9, 9] := by
  have decoded : decodeSqliteDelta overlappingDelta.encoded = .ok overlappingDelta := by
    decide +kernel
  have codec := sqliteDelta_codec [] (List.replicate 513 7) overlappingDelta.encoded 512 overlappingDelta
  have computed := codec.1 (by norm_num) (by norm_num) (by rw [List.length_replicate]; norm_num)
  obtain ⟨encoded, applied⟩ := codec.2 decoded
  exact ⟨computed, encoded, (applied [9, 9, 9, 9]).mpr (by decide)⟩

def hugeDelta : SqliteDelta where
  pageSize := 512
  fileSize := 2 ^ 63
  pages := []

/-- The delta is accepted, and applying it panics. -/
theorem hugeDelta_panics : hugeDelta.encoded.length = 20 ∧
    decodeSqliteDelta hugeDelta.encoded = .ok hugeDelta ∧ applyPageDelta [] hugeDelta = none := by
  decide +kernel

end LibreSync
