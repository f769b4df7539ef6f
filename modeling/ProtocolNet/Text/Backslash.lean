import ProtocolNet.Text.Letter

namespace ProtocolNet.Text.Backslash

-- Text is written and read here over any alphabet that has a double quote and a backslash.
class Alphabet (α : Type) where
  quote : α
  slash : α
  apart : quote ≠ slash

instance : Alphabet Char := ⟨'"','\\',by decide⟩

instance : Alphabet Letter := ⟨.char '"',.char '\\',by decide⟩

open Alphabet (quote slash apart)

theorem slash_ne_quote {α : Type} [Alphabet α] : (slash : α) ≠ quote := Ne.symm apart

variable {α : Type} [DecidableEq α] {c first second becomes : α} {s rest : List α}

def replaceChar (c first second : α) (s : List α) : List α :=
  s.flatMap fun d => if d = c then [first,second] else [d]

def replacePair (first second becomes : α) : List α → List α
  | [] => []
  | [c] => [c]
  | c :: d :: rest =>
    if c = first ∧ d = second then becomes :: replacePair first second becomes rest
    else c :: replacePair first second becomes (d :: rest)

theorem replacePair_of_ne (other : c ≠ first) :
    replacePair first second becomes (c :: rest) = c :: replacePair first second becomes rest := by
  cases rest with
  | nil => rfl
  | cons d rest => rw [replacePair,if_neg fun both => other both.1]

theorem replacePair_of_head (other : rest.head? ≠ some second) :
    replacePair first second becomes (c :: rest) = c :: replacePair first second becomes rest := by
  cases rest with
  | nil => rfl
  | cons d rest => rw [replacePair,if_neg fun both => other (congrArg some both.2)]

theorem replacePair_pair : replacePair first second becomes (first :: second :: rest) =
    becomes :: replacePair first second becomes rest := by
  rw [replacePair,if_pos ⟨rfl,rfl⟩]

theorem mem_of_mem_replacePair (other : c ≠ becomes)
    (member : c ∈ replacePair first second becomes s) : c ∈ s := by
  induction s using replacePair.induct first second with
  | case1 => cases member
  | case2 d => exact member
  | case3 d e rest pair ih =>
    rw [replacePair,if_pos pair] at member
    rcases List.mem_cons.mp member with same | later
    · exact absurd same other
    · exact List.mem_cons_of_mem _ (List.mem_cons_of_mem _ (ih later))
  | case4 d e rest apart ih =>
    rw [replacePair,if_neg apart] at member
    rcases List.mem_cons.mp member with rfl | later
    · exact List.mem_cons_self
    · exact List.mem_cons_of_mem _ (ih later)

variable [Alphabet α]

def escape : List α → List α
  | [] => []
  | c :: rest => if c = quote ∨ c = slash then slash :: c :: escape rest else c :: escape rest

def escapeByChars (s : List α) : List α :=
  replaceChar quote slash quote (replaceChar slash slash slash s)

def unescape : List α → List α
  | [] => []
  | [c] => [c]
  | c :: d :: rest =>
    if c = slash then
      if d = quote ∨ d = slash then d :: unescape rest else c :: d :: unescape rest
    else c :: unescape (d :: rest)

-- Pairs with a quote are replaced before pairs of backslashes.
def unescapeByPairs (s : List α) : List α :=
  replacePair slash slash slash (replacePair slash quote quote s)

theorem escapeByChars_eq_escape (s : List α) : escapeByChars s = escape s := by
  induction s with
  | nil => rfl
  | cons c rest ih =>
    rw [escape,← ih]
    by_cases isQuote : c = quote
    · simp [escapeByChars,replaceChar,isQuote,apart]
    · by_cases isSlash : c = slash <;>
        simp [escapeByChars,replaceChar,isQuote,isSlash,slash_ne_quote]

theorem mem_escape (member : c ∈ s) : c ∈ escape s := by
  induction s with
  | nil => cases member
  | cons d rest ih =>
    rw [escape]
    rcases List.mem_cons.mp member with rfl | later
    · split <;> simp
    · split <;> simp [ih later]

theorem unescape_escape (s : List α) : unescape (escape s) = s := by
  induction s with
  | nil => rfl
  | cons c rest ih =>
    by_cases special : c = quote ∨ c = slash
    · simp [escape,special,unescape,ih]
    · have plain : c ≠ slash := fun h => special (.inr h)
      rw [escape,if_neg special]
      cases written : escape rest with
      | nil => rw [written] at ih; rw [unescape]; simpa [unescape] using ih
      | cons d tail => rw [unescape,if_neg plain,← written,ih]

theorem mem_of_mem_unescapeByPairs (noQuote : c ≠ quote) (noSlash : c ≠ slash)
    (member : c ∈ unescapeByPairs s) : c ∈ s :=
  mem_of_mem_replacePair noQuote (mem_of_mem_replacePair noSlash member)

theorem unescapeByPairs_plain (noSlash : c ≠ slash) :
    unescapeByPairs (c :: rest) = c :: unescapeByPairs rest := by
  rw [unescapeByPairs,replacePair_of_ne noSlash,replacePair_of_ne noSlash,← unescapeByPairs]

theorem unescapeByPairs_quote :
    unescapeByPairs (slash :: quote :: rest) = quote :: unescapeByPairs rest := by
  rw [unescapeByPairs,replacePair_pair,replacePair_of_ne apart,← unescapeByPairs]

-- If a quote stands behind the two backslashes, the first replacement takes the second one of them
-- away and the other stays alone; if not, they are the pair that the second replacement meets.
theorem unescapeByPairs_slash :
    unescapeByPairs (slash :: slash :: rest) = slash :: unescapeByPairs rest := by
  have first : replacePair slash quote quote (slash :: slash :: rest) =
      slash :: replacePair slash quote quote (slash :: rest) :=
    replacePair_of_head fun same => slash_ne_quote (Option.some.inj same)
  rw [unescapeByPairs,first]
  by_cases quoted : rest.head? = some quote
  · obtain ⟨tail,rfl⟩ := List.head?_eq_some_iff.mp quoted
    rw [replacePair_pair,replacePair_of_head (by simpa using apart),replacePair_of_ne apart,
      ← unescapeByPairs,unescapeByPairs_plain apart]
  · rw [replacePair_of_head quoted,replacePair_pair,← unescapeByPairs]

theorem unescapeByPairs_other (noQuote : c ≠ quote) (noSlash : c ≠ slash) :
    unescapeByPairs (slash :: c :: rest) = slash :: c :: unescapeByPairs rest := by
  rw [unescapeByPairs,replacePair_of_head (by simpa using noQuote),replacePair_of_ne noSlash,
    replacePair_of_head (by simpa using noSlash),replacePair_of_ne noSlash,← unescapeByPairs]

theorem unescapeByPairs_eq_unescape (s : List α) : unescapeByPairs s = unescape s := by
  induction s using unescape.induct with
  | case1 => rfl
  | case2 c => rfl
  | case3 d rest special ih =>
    rw [unescape,if_pos rfl,if_pos special,← ih]
    rcases special with rfl | rfl
    · exact unescapeByPairs_quote
    · exact unescapeByPairs_slash
  | case4 d rest ordinary ih =>
    rw [unescape,if_pos rfl,if_neg ordinary,← ih]
    exact unescapeByPairs_other (fun same => ordinary (.inl same)) fun same => ordinary (.inr same)
  | case5 c d rest noSlash ih =>
    rw [unescape,if_neg noSlash,← ih]
    exact unescapeByPairs_plain noSlash

end ProtocolNet.Text.Backslash
