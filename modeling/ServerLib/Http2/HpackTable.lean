import ServerLib.Lib.Fitting

/-! The tables of HPACK: the static table, and the dynamic table with its eviction, which
`hpack_encoder.cpp` and `hpack_decoder.cpp` write out twice with the same body.  Sizes are natural
numbers, since they count bytes that are held in memory. -/

namespace ServerLib.Http2

open Lib List

/-- The bytes of an ASCII literal of the source. -/
def ascii (s : String) : List UInt8 := s.toList.map fun c => UInt8.ofNat c.toNat

structure HpackHeaderField where
  name : List UInt8
  value : List UInt8
deriving DecidableEq

/-- `std::tolower` in the C locale. -/
def tolower (b : UInt8) : UInt8 := if 65 ≤ b ∧ b ≤ 90 then b + 32 else b

def lowercase (name : List UInt8) : List UInt8 := name.map tolower

def strEqCaseInsensitive (a b : List UInt8) : Bool :=
  a.length == b.length && (a.zip b).all fun p => tolower p.1 == tolower p.2

theorem strEqCaseInsensitive_iff (a b : List UInt8) :
    strEqCaseInsensitive a b = true ↔ lowercase a = lowercase b := by
  induction a generalizing b with
  | nil => cases b <;> simp [strEqCaseInsensitive, lowercase]
  | cons x a ih =>
    cases b with
    | nil => simp [strEqCaseInsensitive, lowercase]
    | cons y b =>
      simp only [strEqCaseInsensitive, lowercase, Bool.and_eq_true, beq_iff_eq, zip_cons_cons,
        all_cons, length_cons, map_cons, List.cons.injEq, Nat.succ.injEq] at ih ⊢
      rw [← ih]
      exact and_left_comm

def field (name value : String) : HpackHeaderField := ⟨ascii name, ascii value⟩

/-- The entries 1 to 61 of both arrays `kStaticTable`. -/
def kStaticTable : List HpackHeaderField :=
  [field ":authority" "", field ":method" "GET", field ":method" "POST", field ":path" "/",
   field ":path" "/index.html", field ":scheme" "http", field ":scheme" "https",
   field ":status" "200", field ":status" "204", field ":status" "206", field ":status" "304",
   field ":status" "400", field ":status" "404", field ":status" "500",
   field "accept-charset" "", field "accept-encoding" "gzip, deflate",
   field "accept-language" "", field "accept-ranges" "", field "accept" "",
   field "access-control-allow-origin" "", field "age" "", field "allow" "",
   field "authorization" "", field "cache-control" "", field "content-disposition" "",
   field "content-encoding" "", field "content-language" "", field "content-length" "",
   field "content-location" "", field "content-range" "", field "content-type" "",
   field "cookie" "", field "date" "", field "etag" "", field "expect" "", field "expires" "",
   field "from" "", field "host" "", field "if-match" "", field "if-modified-since" "",
   field "if-none-match" "", field "if-range" "", field "if-unmodified-since" "",
   field "last-modified" "", field "link" "", field "location" "", field "max-forwards" "",
   field "proxy-authenticate" "", field "proxy-authorization" "", field "range" "",
   field "referer" "", field "refresh" "", field "retry-after" "", field "server" "",
   field "set-cookie" "", field "strict-transport-security" "", field "transfer-encoding" "",
   field "user-agent" "", field "vary" "", field "via" "", field "www-authenticate" ""]

def kStaticTableSize : Nat := 61

theorem length_kStaticTable : kStaticTable.length = kStaticTableSize := rfl

/-- A `DynamicEntry`, whose size is that of its strings and 32. -/
structure DynamicEntry where
  name : List UInt8
  value : List UInt8
  size : Nat
  size_eq : size = 32 + name.length + value.length

def DynamicEntry.new (name value : List UInt8) : DynamicEntry :=
  ⟨name, value, 32 + name.length + value.length, rfl⟩

theorem DynamicEntry.size_new (name value : List UInt8) :
    (DynamicEntry.new name value).size = 32 + name.length + value.length := rfl

/-- The fields `dynamic_table_`, `dynamic_table_size_`, and `max_table_size_` of the encoder and of
the decoder.  The newest entry comes first. -/
structure DynamicTable where
  entries : List DynamicEntry
  size : Nat
  maxTableSize : Nat
  size_eq : size = weight DynamicEntry.size entries

namespace DynamicTable

def empty (maxTableSize : Nat) : DynamicTable := ⟨[], 0, maxTableSize, rfl⟩

variable (t : DynamicTable)

/-- The body of the eviction loops: the size of the last entry is subtracted, and the entry is
removed. -/
def popBack : DynamicTable where
  entries := t.entries.dropLast
  size := t.size - (t.entries.getLast?.map (·.size)).getD 0
  maxTableSize := t.maxTableSize
  size_eq := by
    rw [t.size_eq]
    cases hlast : t.entries.getLast? with
    | none => simp [List.getLast?_eq_none_iff.mp hlast]
    | some e =>
      obtain ⟨front, hfront⟩ := List.getLast?_eq_some_iff.mp hlast
      simp [hfront, weight_append]

/-- The loop that removes entries from the back as long as there is one and `cond` holds.  Each
turn removes one, so the number of entries bounds the number of turns. -/
def popWhile (cond : DynamicTable → Bool) : Nat → DynamicTable → DynamicTable
  | 0, t => t
  | n + 1, t => if cond t && !t.entries.isEmpty then popWhile cond n t.popBack else t

def setMaxTableSize (size : Nat) : DynamicTable :=
  let t := { t with maxTableSize := size }
  t.popWhile (fun t => t.size > t.maxTableSize) t.entries.length

def addToDynamicTable (name value : List UInt8) : DynamicTable :=
  let entrySize := 32 + name.length + value.length
  if entrySize > t.maxTableSize then t.popWhile (fun _ => true) t.entries.length
  else
    let t := t.popWhile (fun t => t.size + entrySize > t.maxTableSize) t.entries.length
    { t with
      entries := DynamicEntry.new name value :: t.entries
      size := t.size + entrySize
      size_eq := by rw [weight_cons, t.size_eq, Nat.add_comm]; rfl }

@[simp] theorem maxTableSize_popWhile (cond : DynamicTable → Bool) (n : Nat) (t : DynamicTable) :
    (t.popWhile cond n).maxTableSize = t.maxTableSize := by
  induction n generalizing t with
  | zero => rfl
  | succ n ih =>
    rw [popWhile]
    split
    · exact ih t.popBack
    · rfl

theorem entries_popWhile {cond : DynamicTable → Bool} (maxTableSize limit : Nat)
    (hcond : ∀ t : DynamicTable, t.maxTableSize = maxTableSize → (cond t = true ↔ limit < t.size))
    {t : DynamicTable} (ht : t.maxTableSize = maxTableSize) (hn : t.entries.length ≤ n) :
    (t.popWhile cond n).entries = fitting DynamicEntry.size limit t.entries := by
  induction n generalizing t with
  | zero =>
    rw [popWhile, length_eq_zero_iff.mp (Nat.le_zero.mp hn)]
    rfl
  | succ n ih =>
    rw [popWhile]
    split_ifs with h
    · rw [Bool.and_eq_true, hcond t ht, t.size_eq] at h
      have hlen : t.popBack.entries.length ≤ n := by
        simp only [popBack, length_dropLast]
        omega
      rw [ih (t := t.popBack) ht hlen]
      exact fitting_dropLast h.1
    · rw [Bool.and_eq_true, hcond t ht, t.size_eq, not_and_or, Nat.not_lt] at h
      rcases h with h | h
      · exact (fitting_eq_self h).symm
      · have hnil : t.entries = [] := by simpa using h
        rw [hnil]
        rfl

theorem entries_setMaxTableSize (size : Nat) :
    (t.setMaxTableSize size).entries = fitting DynamicEntry.size size t.entries :=
  entries_popWhile (t := { t with maxTableSize := size }) size size (fun t ht => by simp [ht]) rfl
    le_rfl

theorem entries_addToDynamicTable {t : DynamicTable} {name value : List UInt8}
    (h : 32 + name.length + value.length ≤ t.maxTableSize) :
    (t.addToDynamicTable name value).entries = DynamicEntry.new name value ::
      fitting DynamicEntry.size (t.maxTableSize - (32 + name.length + value.length)) t.entries := by
  rw [addToDynamicTable]
  simp only [Nat.not_lt.mpr h, if_false]
  rw [entries_popWhile t.maxTableSize (t.maxTableSize - (32 + name.length + value.length)) _ rfl
    le_rfl]
  intro t' ht'
  rw [decide_eq_true_eq]
  omega

@[simp] theorem maxTableSize_addToDynamicTable (name value : List UInt8) :
    (t.addToDynamicTable name value).maxTableSize = t.maxTableSize := by
  rw [addToDynamicTable]
  split <;> exact maxTableSize_popWhile _ _ _

end DynamicTable

end ServerLib.Http2
