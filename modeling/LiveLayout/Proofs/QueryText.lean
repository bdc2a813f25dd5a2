import LiveLayout.Live.Fetch
import LiveLayout.Proofs.Escaping
import LiveLayout.Text.Cut

/-!
# Reading a query back

The query of a request stands at the end of its address. No name and no value
can write a separator, so whoever receives the address finds the pairs again by
cutting it at the separators and decoding what is between them.
-/

namespace LiveLayout.Live.Request

open Text (cutAt? cutAt?_append)
open Text.Percent (decode encode encodeChars encodes_encodeChars reserved)

-- ---------------------------------------------------------------------------
-- The receiver
-- ---------------------------------------------------------------------------

/-- A piece is a pair that is cut at its first equals sign. -/
def readPair? (piece : List Char) : Option (String × String) := do
  let (name, value) ← cutAt? '=' piece
  return (← decode name, ← decode value)

def readQuery? (text : String) : Option (List (String × String)) :=
  (text.toList.splitOn '&').mapM readPair?

-- ---------------------------------------------------------------------------
-- Pieces
-- ---------------------------------------------------------------------------

/-- How a pair is written. -/
def pairChars (p : String × String) : List Char :=
  encodeChars p.1.toList ++ '=' :: encodeChars p.2.toList

theorem notMem_pairChars (p : String × String) : '&' ∉ pairChars p := by
  have hr : '&' ∈ reserved := by decide
  simp [pairChars, (encodes_encodeChars _).notMem hr]

theorem readPair?_pairChars (p : String × String) : readPair? (pairChars p) = some p := by
  have hr : '=' ∈ reserved := by decide
  have hcut : cutAt? '=' (pairChars p) = some (encodeChars p.1.toList, encodeChars p.2.toList) :=
    cutAt?_append ((encodes_encodeChars _).notMem hr) _
  simp [readPair?, hcut, (encodes_encodeChars _).decode]

theorem toList_queryText (pairs : List (String × String)) :
    (queryText pairs).toList = ['&'].intercalate (pairs.map pairChars) := by
  have hpiece (p : String × String) : (encode p.1 ++ "=" ++ encode p.2).toList = pairChars p := by
    simp [encode, pairChars]
  rw [queryText, String.toList_intercalate, List.map_map]
  exact congrArg _ (List.map_congr_left fun p _ => hpiece p)

theorem readQuery?_queryText (hne : pairs ≠ []) : readQuery? (queryText pairs) = some pairs := by
  have hsplit : (queryText pairs).toList.splitOn '&' = pairs.map pairChars := by
    rw [toList_queryText]
    refine List.splitOn_intercalate '&' (fun piece hm => ?_) (by simpa using hne)
    obtain ⟨p, _, rfl⟩ := List.mem_map.mp hm
    exact notMem_pairChars p
  have hread : readPair? ∘ pairChars = pure := funext readPair?_pairChars
  rw [readQuery?, hsplit, List.mapM_map, hread, List.mapM_pure, List.map_id']
  rfl

example : readQuery? "q=a%26b%3Dc&=%C3%A9" = some [("q", "a&b=c"), ("", "é")] := by cbv

-- ---------------------------------------------------------------------------
-- Addresses
-- ---------------------------------------------------------------------------

/-- An endpoint that has a query of its own is continued. -/
def separator (endpoint : String) : String := if endpoint.toList.contains '?' then "&" else "?"

theorem separator_ne_empty (endpoint : String) : separator endpoint ≠ "" := by
  unfold separator
  split <;> simp

/-- What comes after the endpoint. -/
def tail (r : Request) : String :=
  if r.query = [] then "" else separator r.endpoint ++ queryText r.query

theorem url_eq (r : Request) : r.url = r.endpoint ++ r.tail := by
  by_cases h : r.query = []
  · simp [url, tail, h]
  · rw [url, tail, if_neg h, if_neg (by simpa using h), String.append_assoc]
    rfl

theorem tail_eq_empty_iff {r : Request} : r.tail = "" ↔ r.query = [] := by
  unfold tail
  split
  · simp [*]
  · simp [*, separator_ne_empty]

/-- The pairs are told by the tail. -/
theorem query_eq_of_tail_eq {r other : Request} (he : other.endpoint = r.endpoint)
    (ht : other.tail = r.tail) : other.query = r.query := by
  by_cases h : r.query = []
  · rw [h, ← tail_eq_empty_iff, ht, tail_eq_empty_iff, h]
  · have ho : other.query ≠ [] := by rwa [ne_eq, ← tail_eq_empty_iff, ht, tail_eq_empty_iff]
    rw [tail, tail, if_neg h, if_neg ho, he] at ht
    have hq := readQuery?_queryText ho
    rw [(String.append_right_inj _).mp ht, readQuery?_queryText h] at hq
    exact (Option.some.inj hq).symm

/-- A request's address is its endpoint, and after it, if it has a query at all,
a separator and a text that the pairs are read back from in their order. So with
one endpoint different queries have different addresses. -/
theorem url_read_back (r : Request) :
    ∃ rest, r.url = r.endpoint ++ rest ∧ (rest = "" ↔ r.query = []) ∧
      (r.query ≠ [] → ∃ text,
        rest = (if '?' ∈ r.endpoint.toList then "&" else "?") ++ text ∧
        readQuery? text = some r.query) ∧
      ∀ other : Request, other.endpoint = r.endpoint → other.query ≠ r.query →
        other.url ≠ r.url := by
  refine ⟨r.tail, r.url_eq, tail_eq_empty_iff, fun h => ⟨queryText r.query, ?_, ?_⟩, ?_⟩
  · rw [tail, if_neg h, separator]
    simp only [List.contains_iff_mem]
  · exact readQuery?_queryText h
  · intro other he hq hu
    rw [url_eq, url_eq, he] at hu
    exact hq (query_eq_of_tail_eq he ((String.append_right_inj _).mp hu))

end LiveLayout.Live.Request
