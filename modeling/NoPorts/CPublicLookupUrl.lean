import NoPorts.CPermitopenAdvertised
import NoPorts.Lib.CAppend
import NoPorts.Lib.PercentEncoding

/-! The url that the C daemon looks a public record up at. -/
namespace NoPorts.CDaemon
open Lib Lib.CAppend

def ascii (s : String) : List UInt8 := s.toList.map fun c => UInt8.ofNat c.toNat

def keep : List UInt8 := ascii "-._~!$&'()*+,;=:@"

/-- A byte that `append_path_segment` appends as it is. -/
def isKept (c : UInt8) : Bool :=
  (65 ≤ c && c ≤ 90) || (97 ≤ c && c ≤ 122) || (48 ≤ c && c ≤ 57) || keep.contains c

section
variable (scrap : List UInt8 → List UInt8)

/-- The loop of `append_path_segment`: the buffer and `n` behind it. -/
def appendBytes (urlSize : ℕ) : List UInt8 → List UInt8 → ℕ → Option (List UInt8 × ℕ)
  | [], url, n => some (url, n)
  | c :: segment, url, n =>
    if n + 4 < urlSize then
      if isKept c then (store url n [c]).bind fun url => appendBytes urlSize segment url (n + 1)
      else (snprintf scrap url n (sizeSub urlSize n) (percentByte c)).bind fun url =>
        appendBytes urlSize segment url (n + (percentByte c).length)
    else some (url, n)

def appendPathSegment (url : List UInt8) (urlSize : ℕ) (segment : List UInt8) : Option (List UInt8) :=
  (strlen url).bind fun n => (appendBytes scrap urlSize segment url n).bind fun (url, n) => store url n [0]

def publicPrefix : List UInt8 := ascii "public:"

/-- The key and the atSign of a uri, none where `public_lookup_at` refuses it. -/
def lookupRecord (uri : List UInt8) : Option (List UInt8 × List UInt8) :=
  (strrchr uri 64).bind fun at' =>
    if publicPrefix.isPrefixOf uri ∧ publicPrefix.length ≤ at' then
      some ((uri.drop publicPrefix.length).take (at' - publicPrefix.length), uri.drop at')
    else none

def urlSize (scheme host uri : List UInt8) : ℕ := (scheme.length + host.length + 3 * uri.length + 32) % ulongRange

/-- What `"%s://%s:%u/"` prints. -/
def urlFront (scheme host : List UInt8) (port : UInt16) : List UInt8 :=
  scheme ++ ascii "://" ++ host ++ ascii ":" ++ ascii (toString port.toNat) ++ ascii "/"

def writeUrl (scheme host : List UInt8) (port : UInt16) (key atSign url : List UInt8) (urlSize : ℕ) :
    Option (List UInt8) := do
  let url ← snprintf scrap url 0 urlSize (urlFront scheme host port)
  let url ← appendPathSegment scrap url urlSize atSign
  let url ← strncat url (ascii "/") (sizeSub (sizeSub urlSize (← strlen url)) 1)
  appendPathSegment scrap url urlSize key

inductive LookupUrl where
  /-- `PUBLIC_LOOKUP_FAILED`, before any url is written. -/
  | failed
  /-- A byte is read or written outside of the buffer. -/
  | overrun
  | url (buffer : List UInt8)
  deriving DecidableEq, Repr

/-- `public_lookup_at` to its transfer. `malloc` gives the url's buffer, none when memory runs out for any of what is
allocated. -/
def publicLookupAt (malloc : (size : ℕ) → Option { buffer : List UInt8 // buffer.length = size })
    (scheme host : List UInt8) (port : UInt16) (uri : List UInt8) : LookupUrl :=
  match lookupRecord uri with
  | none => .failed
  | some (key, atSign) =>
    match malloc (urlSize scheme host uri) with
    | none => .failed
    | some url =>
      match writeUrl scrap scheme host port key atSign url.val (urlSize scheme host uri) with
      | none => .overrun
      | some url => .url url

end

/-- The segments of a url's path as a server reads them. -/
def pathSegments (path : List UInt8) : Option (List (List UInt8)) :=
  ((path.takeWhile fun c => c != 63 && c != 35).splitOn 47).mapM percentDecode

/-! ### A segment in its buffer -/

theorem zero_notMem_percentEncode (bytes : List UInt8) : 0 ∉ percentEncode isKept bytes :=
  notMem_percentEncode (by decide) (by decide) (by decide) bytes

section
variable (scrap : List UInt8 → List UInt8) {url text : List UInt8} (segment : List UInt8) {size : ℕ}

/-- The loop appends the whole segment, each byte of which has room for three. -/
theorem appendBytes_spec (hurl : url.length = size) (hrange : size < ulongRange) (h : text <+: url)
    (hroom : text.length + 3 * segment.length + 4 < size) :
    ∃ url', appendBytes scrap size segment url text.length =
        some (url', (text ++ percentEncode isKept segment).length) ∧
      text ++ percentEncode isKept segment <+: url' ∧ url'.length = size := by
  -- the room that is left covers three bytes for each one to come, so the guard holds at every turn
  induction segment generalizing url text with
  | nil =>
    refine ⟨url, ?_, ?_, hurl⟩
    · rw [appendBytes, percentEncode, List.flatMap_nil, List.append_nil]
    · rw [percentEncode, List.flatMap_nil, List.append_nil]
      exact h
  | cons c segment ih =>
    rw [List.length_cons] at hroom
    rw [appendBytes, if_pos (by omega), percentEncode_cons, ← List.append_assoc]
    split
    · have hbyte : text.length + [c].length ≤ url.length := by
        rw [List.length_singleton]
        omega
      obtain ⟨url₁, hstore, hfront, hlen⟩ := store_prefix h hbyte
      rw [hstore, Option.bind_some]
      have hmore := ih (hlen.trans hurl) hfront (by rw [List.length_append, List.length_singleton]; omega)
      rw [List.length_append, List.length_singleton] at hmore
      exact hmore
    · have hbytes : text.length + (percentByte c).length < url.length := by
        rw [length_percentByte]
        omega
      obtain ⟨url₁, hprint, hheld, hlen⟩ :=
        snprintf_append scrap h (by rw [length_percentByte]; decide) hbytes
      rw [sizeSub_eq (by omega) hrange, ← hurl, hprint, Option.bind_some, hurl]
      have hmore := ih (hlen.trans hurl) ((List.prefix_append _ _).trans hheld)
        (by rw [List.length_append, length_percentByte]; omega)
      rw [List.length_append] at hmore
      exact hmore

/-- The url grows by the whole segment. -/
theorem appendPathSegment_spec (hurl : url.length = size) (hrange : size < ulongRange) (h : Holds url text)
    (hroom : text.length + 3 * segment.length + 4 < size) :
    ∃ url', appendPathSegment scrap url size segment = some url' ∧
      Holds url' (text ++ percentEncode isKept segment) ∧ url'.length = size := by
  obtain ⟨url₁, hloop, hfront, hlen⟩ := appendBytes_spec scrap segment hurl hrange h.front hroom
  have hencoded : (percentEncode isKept segment).length ≤ 3 * segment.length := length_percentEncode_le segment
  have hend : (text ++ percentEncode isKept segment).length + [(0 : UInt8)].length ≤ url₁.length := by
    rw [List.length_append, List.length_singleton]
    omega
  obtain ⟨url₂, hstore, hheld, hlen'⟩ := store_prefix hfront hend
  refine ⟨url₂, ?_, ⟨?_, hheld⟩, hlen'.trans hlen⟩
  · rw [appendPathSegment, h.strlen, Option.bind_some, hloop, Option.bind_some]
    exact hstore
  · rw [List.mem_append]
    exact not_or.mpr ⟨h.nul, zero_notMem_percentEncode segment⟩

end

/-! ### The whole url -/

theorem mem_ascii {s : String} {b : UInt8} (h : b ∈ ascii s) : ∃ c ∈ s.toList, b = UInt8.ofNat c.toNat := by
  obtain ⟨c, hc, rfl⟩ := List.mem_map.mp h
  exact ⟨c, hc, rfl⟩

theorem zero_notMem_port (port : UInt16) : 0 ∉ ascii (toString port.toNat) := by
  intro h
  obtain ⟨c, hc, hzero⟩ := mem_ascii h
  have hdigit := isDigit_of_mem_toString _ c hc
  rw [Char.isDigit_iff_toNat] at hdigit
  -- no digit is a NUL, and none is cut to a byte
  have hlow : '0'.toNat = 48 := rfl
  have hhigh : '9'.toNat = 57 := rfl
  have hvalue := congrArg UInt8.toNat hzero
  rw [UInt8.toNat_ofNat_of_lt' (by rw [UInt8.size]; omega)] at hvalue
  have hnil : (0 : UInt8).toNat = 0 := rfl
  omega

section
variable (scheme host : List UInt8) (port : UInt16)

theorem zero_notMem_urlFront {scheme host : List UInt8} (hscheme : 0 ∉ scheme) (hhost : 0 ∉ host) :
    0 ∉ urlFront scheme host port := by
  have hslashes : (0 : UInt8) ∉ ascii "://" := by decide
  have hcolon : (0 : UInt8) ∉ ascii ":" := by decide
  have hslash : (0 : UInt8) ∉ ascii "/" := by decide
  simp only [urlFront, List.mem_append, not_or]
  exact ⟨⟨⟨⟨⟨hscheme, hslashes⟩, hhost⟩, hcolon⟩, zero_notMem_port port⟩, hslash⟩

theorem length_urlFront_le : (urlFront scheme host port).length ≤ scheme.length + host.length + 10 := by
  have hport : (ascii (toString port.toNat)).length ≤ 5 := by
    have hlt := port.toNat_lt
    rw [ascii, List.length_map]
    exact toString_length_le (by omega)
  have hslashes : (ascii "://").length = 3 := by decide
  have hcolon : (ascii ":").length = 1 := by decide
  have hslash : (ascii "/").length = 1 := by decide
  simp only [urlFront, List.length_append]
  omega

end

theorem urlSize_eq (scheme host uri : CStr) : urlSize scheme.bytes host.bytes uri.bytes =
    scheme.bytes.length + host.bytes.length + 3 * uri.bytes.length + 32 := by
  have hscheme := scheme.inMemory
  have hhost := host.inMemory
  have huri := uri.inMemory
  have hrange : ulongRange = 2 ^ 64 := by decide
  rw [urlSize, Nat.mod_eq_of_lt (by omega)]

/-- A uri that is looked up is its prefix, a key and an atSign. -/
theorem lookupRecord_eq_some {uri key atSign : List UInt8} (h : lookupRecord uri = some (key, atSign)) :
    uri = publicPrefix ++ key ++ atSign := by
  obtain ⟨i, -, h⟩ := Option.bind_eq_some_iff.mp h
  split at h
  · rename_i hprefix
    obtain ⟨rfl, rfl⟩ := Prod.mk.inj (Option.some.inj h)
    obtain ⟨rest, rfl⟩ := List.isPrefixOf_iff_prefix.mp hprefix.1
    obtain ⟨k, rfl⟩ := Nat.exists_eq_add_of_le hprefix.2
    rw [← List.drop_drop, List.drop_left, Nat.add_sub_cancel_left, List.append_assoc, List.take_append_drop]
  · cases h

/-- The bytes that end a segment or the path are not in a segment. -/
theorem segment_end_notMem (bytes : List UInt8) :
    47 ∉ percentEncode isKept bytes ∧ 63 ∉ percentEncode isKept bytes ∧ 35 ∉ percentEncode isKept bytes :=
  ⟨notMem_percentEncode (by decide) (by decide) (by decide) bytes,
    notMem_percentEncode (by decide) (by decide) (by decide) bytes,
    notMem_percentEncode (by decide) (by decide) (by decide) bytes⟩

/-- The path is read as the two segments that it was written from. -/
theorem pathSegments_written (atSign key : List UInt8) :
    pathSegments (percentEncode isKept atSign ++ ascii "/" ++ percentEncode isKept key) = some [atSign, key] := by
  obtain ⟨hslash, hquestion, hhash⟩ := segment_end_notMem atSign
  obtain ⟨hslash', hquestion', hhash'⟩ := segment_end_notMem key
  have hwritten : percentEncode isKept atSign ++ ascii "/" ++ percentEncode isKept key =
      percentEncode isKept atSign ++ 47 :: percentEncode isKept key := List.append_assoc _ _ _
  have hpath : ∀ c ∈ percentEncode isKept atSign ++ 47 :: percentEncode isKept key,
      (c != 63 && c != 35) = true := by
    intro c hc
    rw [Bool.and_eq_true, bne_iff_ne, bne_iff_ne]
    rcases List.mem_append.mp hc with hc | hc
    · exact ⟨fun heq => hquestion (heq ▸ hc), fun heq => hhash (heq ▸ hc)⟩
    · rcases List.mem_cons.mp hc with rfl | hc
      · decide
      · exact ⟨fun heq => hquestion' (heq ▸ hc), fun heq => hhash' (heq ▸ hc)⟩
  have hkept : isKept 37 = false := by decide
  rw [pathSegments, hwritten, List.takeWhile_eq_self_iff.mpr hpath, List.splitOn_append_cons_self,
    List.splitOn_eq_singleton hslash, List.splitOn_eq_singleton hslash', List.singleton_append, List.mapM_cons,
    percentDecode_percentEncode hkept, List.mapM_cons, percentDecode_percentEncode hkept]
  rfl

theorem writeUrl_spec (scrap : List UInt8 → List UInt8) {scheme host : List UInt8} {port : UInt16} (key atSign : List UInt8)
    {url : List UInt8} {size : ℕ} (hurl : url.length = size) (hrange : size < ulongRange) (hscheme : 0 ∉ scheme)
    (hhost : 0 ∉ host) (hfront : (urlFront scheme host port).length ≤ intMax)
    (hroom : (urlFront scheme host port).length + 3 * atSign.length + 1 + 3 * key.length + 4 < size) :
    ∃ url', writeUrl scrap scheme host port key atSign url size = some url' ∧ url'.length = size ∧
      Holds url' (urlFront scheme host port ++ percentEncode isKept atSign ++ ascii "/" ++ percentEncode isKept key) := by
  have hnul := zero_notMem_urlFront port hscheme hhost
  have hslash : (ascii "/").length = 1 := by decide
  generalize hwritten : urlFront scheme host port = front at hfront hroom hnul ⊢
  obtain ⟨url₁, hprint, hheld₁, hlen₁⟩ :=
    snprintf_append scrap (List.nil_prefix (l := url)) hfront (by rw [List.length_nil]; omega)
  rw [List.length_nil, Nat.sub_zero, hurl] at hprint
  obtain ⟨url₂, hsegment, hholds₂, hlen₂⟩ :=
    appendPathSegment_spec scrap atSign (hlen₁.trans hurl) hrange ⟨hnul, hheld₁⟩ (by omega)
  -- what the slash and the key find in front of them
  have hencoded : (percentEncode isKept atSign).length ≤ 3 * atSign.length := length_percentEncode_le atSign
  have hlength : (front ++ percentEncode isKept atSign).length = front.length + (percentEncode isKept atSign).length :=
    List.length_append
  have hleft : sizeSub (sizeSub size (front ++ percentEncode isKept atSign).length) 1 =
      size - (front ++ percentEncode isKept atSign).length - 1 := by
    rw [sizeSub_eq (by omega) hrange, sizeSub_eq (by omega) (by omega)]
  have hslashFits : (ascii "/").length ≤ size - (front ++ percentEncode isKept atSign).length - 1 := by omega
  obtain ⟨url₃, hcat, hholds₃, hlen₃⟩ := hholds₂.strncat (by decide) hslashFits (by omega)
  obtain ⟨url₄, hkey, hholds₄, hlen₄⟩ :=
    appendPathSegment_spec scrap key (hlen₃.trans hlen₂) hrange hholds₃ (by rw [List.length_append]; omega)
  refine ⟨url₄, ?_, hlen₄, hholds₄⟩
  simp only [writeUrl, Option.bind_eq_bind, hwritten, hprint, hsegment, hholds₂.strlen, hleft, hcat, hkey, Option.bind_some]

/-- The url of every uri that is looked up is written whole and within its buffer, and its path is read as the record. -/
theorem publicLookupAt_exact (scrap : List UInt8 → List UInt8)
    (malloc : (size : ℕ) → Option { buffer : List UInt8 // buffer.length = size }) {scheme host uri : CStr} {port : UInt16}
    (hfront : (urlFront scheme.bytes host.bytes port).length ≤ intMax) {key atSign : List UInt8}
    (haccepts : lookupRecord uri.bytes = some (key, atSign))
    {buffer} (hmalloc : malloc (urlSize scheme.bytes host.bytes uri.bytes) = some buffer) :
    uri.bytes = publicPrefix ++ key ++ atSign ∧
      ∃ url, publicLookupAt scrap malloc scheme.bytes host.bytes port uri.bytes = .url url ∧
        url.length = urlSize scheme.bytes host.bytes uri.bytes ∧
        cstring url 0 = urlFront scheme.bytes host.bytes port ++ percentEncode isKept atSign ++ ascii "/" ++
          percentEncode isKept key ∧
        pathSegments ((cstring url 0).drop (urlFront scheme.bytes host.bytes port).length) = some [atSign, key] := by
  -- the prefix of the uri and the 32 bytes more leave room for what surrounds the segments
  have hrecord := lookupRecord_eq_some haccepts
  have hlength := congrArg List.length hrecord
  have hprefix : publicPrefix.length = 7 := by decide
  rw [List.length_append, List.length_append, hprefix] at hlength
  have hsize := urlSize_eq scheme host uri
  have hrange : urlSize scheme.bytes host.bytes uri.bytes < ulongRange := Nat.mod_lt _ (by decide)
  have hfrontLength := length_urlFront_le scheme.bytes host.bytes port
  obtain ⟨url, hwrite, hlen, hholds⟩ := writeUrl_spec scrap key atSign buffer.property hrange scheme.nul
    host.nul hfront (by omega)
  refine ⟨hrecord, url, ?_, hlen, hholds.cstring, ?_⟩
  · simp only [publicLookupAt, haccepts, hmalloc, hwrite]
  · rw [hholds.cstring, List.append_assoc, List.append_assoc, List.drop_left, ← List.append_assoc]
    exact pathSegments_written atSign key

/-- The record's bytes are read again, whatever they are. -/
theorem publicLookupAt_exact_sample : ∃ url,
    publicLookupAt id (fun size => some ⟨List.replicate size 255, List.length_replicate⟩) (ascii "https") (ascii "host") 443
      (ascii "public:a/%b@alice") = .url url ∧ url.length = 92 ∧
        pathSegments ((cstring url 0).drop 17) = some [ascii "@alice", ascii "a/%b"] := by
  let scheme : CStr := ⟨ascii "https", by decide, by decide⟩
  let host : CStr := ⟨ascii "host", by decide, by decide⟩
  let uri : CStr := ⟨ascii "public:a/%b@alice", by decide, by decide⟩
  have hfront : (urlFront scheme.bytes host.bytes 443).length ≤ intMax := by decide
  have haccepts : lookupRecord uri.bytes = some (ascii "a/%b", ascii "@alice") := by decide
  obtain ⟨-, url, hurl, hlen, -, hpath⟩ := publicLookupAt_exact id
    (fun size => some ⟨List.replicate size 255, List.length_replicate⟩) hfront haccepts rfl
  exact ⟨url, hurl, hlen, hpath⟩

end NoPorts.CDaemon
