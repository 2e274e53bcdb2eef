import Parley.Proofs.Document.Boundary
import Parley.Proofs.Document.Mention

/-!
# Destinations

Documents of plain text, links, images, and images that are links. A label ends at
the first place where a target follows, so of an image that is a link the image is
read: the place it comes from gets a number, and where the link leads stays in the
text and is sent along with its chunk. No other destination is.
-/

namespace Parley
namespace Document

/-!
# Documents
-/

def isMark (c : Char) : Bool :=
  c = '[' || c = ']' || c = '(' || c = ')'

structure PlainRun where
  chars : List Char
  unmarked : ∀ c ∈ chars, isMark c = false

structure Phrase where
  chars : List Char
  ne_nil : chars ≠ []
  unmarked : ∀ c ∈ chars, isMark c = false
  oneLine : '\n' ∉ chars

def Phrase.single (c : Char) (hmark : isMark c = false) (hline : '\n' ≠ c) : Phrase where
  chars := [c]
  ne_nil := List.cons_ne_nil c []
  unmarked := by simpa using hmark
  oneLine := by simpa using hline

def Phrase.text (p : Phrase) : String :=
  String.ofList p.chars

inductive Element where
  | text (run : PlainRun)
  | link (label target : Phrase)
  | image (alt source : Phrase)
  | linkedImage (alt source target : Phrase)

namespace Element

def write : Element → List Char
  | .text run => run.chars
  | .link label target => writeLink label.chars target.chars
  | .image alt source => '!' :: writeLink alt.chars source.chars
  | .linkedImage alt source target =>
    writeLink ('!' :: writeLink alt.chars source.chars) target.chars

def destinations : Element → List Phrase
  | .text _ => []
  | .link _ target => [target]
  | .image _ source => [source]
  | .linkedImage _ source target => [source, target]

def taken : Element → List Phrase
  | .text _ => []
  | .link _ target => [target]
  | .image _ source => [source]
  | .linkedImage _ source _ => [source]

def left : Element → List Phrase
  | .linkedImage _ _ target => [target]
  | _ => []

def numbered (n : Nat) : Element → List Char
  | .text run => run.chars
  | .link label _ => writeLink label.chars (Text.digits n)
  | .image alt _ => '!' :: writeLink alt.chars (Text.digits n)
  | .linkedImage alt _ target =>
    writeLink ('!' :: writeLink alt.chars (Text.digits n)) target.chars

def pieces : Element → List Piece
  | .text run => run.chars.map Piece.char
  | .link label target => [.link label.chars target.chars]
  | .image alt source => [.char '!', .link alt.chars source.chars]
  | .linkedImage alt source target =>
    .link ('!' :: '[' :: alt.chars) source.chars ::
      (']' :: '(' :: (target.chars ++ [')'])).map Piece.char

theorem destinations_eq (e : Element) : e.destinations = e.taken ++ e.left := by
  cases e <;> rfl

end Element

def writeElements (es : List Element) : List Char :=
  es.flatMap Element.write

def takenFrom (es : List Element) : List Phrase :=
  es.flatMap Element.taken

def leftIn (es : List Element) : List Phrase :=
  es.flatMap Element.left

def numberedFrom (n : Nat) : List Element → List Char
  | [] => []
  | e :: es => e.numbered n ++ numberedFrom (n + e.taken.length) es

/-!
# Unmarked text
-/

theorem notMem_of_unmarked {cs : List Char} (h : ∀ c ∈ cs, isMark c = false) {mark : Char}
    (hmark : isMark mark = true) : mark ∉ cs := by
  intro hmem
  rw [h mark hmem] at hmark
  cases hmark

theorem seamless_of_notMem {cs : List Char} (h : ']' ∉ cs) : Seamless cs := by
  intro hseam
  exact h (hseam.subset List.mem_cons_self)

theorem Phrase.anyTarget_append (p : Phrase) (rest : List Char) :
    anyTarget [] (p.chars ++ ')' :: rest) = some (p.chars, rest) :=
  Document.anyTarget_append (Or.inr p.ne_nil) p.oneLine (notMem_of_unmarked p.unmarked rfl)

theorem writeLink_append (label target rest : List Char) :
    writeLink label target ++ rest =
      '[' :: (label ++ ']' :: '(' :: (target ++ ')' :: rest)) := by
  simp [writeLink]

/-!
# Reading
-/

theorem linkPieces_append_of_notMem {cs : List Char} (h : '[' ∉ cs) (rest : List Char) :
    linkPieces (cs ++ rest) = cs.map Piece.char ++ linkPieces rest := by
  induction cs with
  | nil => rfl
  | cons c cs ih =>
      rw [List.mem_cons, not_or] at h
      rw [List.cons_append, linkPieces, piecesOf_char fun hc => absurd hc.symm h.left,
        List.map_cons, List.cons_append]
      exact congrArg (Piece.char c :: ·) (ih h.right)

theorem linkPieces_link {label : List Char} (hne : label ≠ []) (hline : '\n' ∉ label)
    (hclose : ']' ∉ label) (target : Phrase) (rest : List Char) :
    linkPieces ('[' :: (label ++ ']' :: '(' :: (target.chars ++ ')' :: rest))) =
      .link label target.chars :: linkPieces rest := by
  have hlink := linkAfter_of_seam (seamless_of_notMem hclose) hne (target.anyTarget_append rest)
  rw [if_neg hline] at hlink
  exact piecesOf_link hlink

theorem Element.linkPieces_write (e : Element) (rest : List Char) :
    linkPieces (e.write ++ rest) = e.pieces ++ linkPieces rest := by
  cases e with
  | text run => exact linkPieces_append_of_notMem (notMem_of_unmarked run.unmarked rfl) rest
  | link label target =>
      rw [Element.write, writeLink_append]
      exact linkPieces_link label.ne_nil label.oneLine (notMem_of_unmarked label.unmarked rfl)
        target rest
  | image alt source =>
      rw [Element.write, List.cons_append, writeLink_append, ← List.singleton_append,
        linkPieces_append_of_notMem (by decide),
        linkPieces_link alt.ne_nil alt.oneLine (notMem_of_unmarked alt.unmarked rfl)]
      rfl
  | linkedImage alt source target =>
      have hline : '\n' ∉ '!' :: '[' :: alt.chars := by simp [alt.oneLine]
      have halt : ']' ∉ alt.chars := notMem_of_unmarked alt.unmarked rfl
      have htarget : '[' ∉ target.chars := notMem_of_unmarked target.unmarked rfl
      have hclose : ']' ∉ '!' :: '[' :: alt.chars := by simp [halt]
      have hopen : '[' ∉ ']' :: '(' :: (target.chars ++ [')']) := by simp [htarget]
      have hshape : writeLink ('!' :: writeLink alt.chars source.chars) target.chars ++ rest =
          '[' :: (('!' :: '[' :: alt.chars) ++ ']' :: '(' :: (source.chars ++ ')' ::
            ((']' :: '(' :: (target.chars ++ [')'])) ++ rest))) := by
        simp [writeLink]
      rw [Element.write, hshape, linkPieces_link (List.cons_ne_nil _ _) hline hclose,
        linkPieces_append_of_notMem hopen]
      rfl

theorem linkPieces_writeElements (es : List Element) :
    linkPieces (writeElements es) = es.flatMap Element.pieces := by
  induction es with
  | nil => exact piecesOf_nil
  | cons e es ih =>
      rw [writeElements, List.flatMap_cons, Element.linkPieces_write, List.flatMap_cons, ← ih]
      rfl

/-!
# Numbering
-/

theorem writeNumbered_chars (n : Nat) (cs : List Char) :
    writeNumbered n (cs.map Piece.char) = cs := by
  induction cs with
  | nil => rfl
  | cons c cs ih => rw [List.map_cons, writeNumbered, ih]

theorem filterMap_target_chars (cs : List Char) :
    (cs.map Piece.char).filterMap Piece.target? = [] := by
  induction cs with
  | nil => rfl
  | cons c cs ih => rw [List.map_cons, List.filterMap_cons_none rfl, ih]

theorem Element.filterMap_pieces (e : Element) :
    e.pieces.filterMap Piece.target? = e.taken.map Phrase.chars := by
  cases e with
  | text run => exact filterMap_target_chars run.chars
  | link label target => rfl
  | image alt source => rfl
  | linkedImage alt source target =>
      have hrest := filterMap_target_chars (']' :: '(' :: (target.chars ++ [')']))
      exact congrArg (source.chars :: ·) hrest

theorem Element.writeNumbered_pieces (n : Nat) (e : Element) :
    writeNumbered n e.pieces = e.numbered n := by
  cases e with
  | text run => exact writeNumbered_chars n run.chars
  | link label target => simp [Element.pieces, Element.numbered, writeNumbered]
  | image alt source => simp [Element.pieces, Element.numbered, writeNumbered]
  | linkedImage alt source target =>
      rw [Element.pieces, writeNumbered, writeNumbered_chars]
      simp [Element.numbered, writeLink]

theorem writeNumbered_flatMap_pieces (n : Nat) (es : List Element) :
    writeNumbered n (es.flatMap Element.pieces) = numberedFrom n es := by
  induction es generalizing n with
  | nil => rfl
  | cons e es ih =>
      rw [List.flatMap_cons, writeNumbered_append, e.writeNumbered_pieces, countLinks,
        e.filterMap_pieces, List.length_map, ih, numberedFrom]

theorem numberLinks_writeElements (es : List Element) :
    numberLinks (String.ofList (writeElements es)) =
      (String.ofList (numberedFrom 0 es), (takenFrom es).map Phrase.text) := by
  have htargets : (es.flatMap Element.pieces).filterMap Piece.target? =
      (takenFrom es).map Phrase.chars := by
    rw [List.filterMap_flatMap, takenFrom, List.map_flatMap]
    exact congrArg (es.flatMap ·) (funext Element.filterMap_pieces)
  rw [numberLinks, String.toList_ofList, linkPieces_writeElements, writeNumbered_flatMap_pieces,
    htargets, List.map_map]
  rfl

theorem numberedFrom_append (n : Nat) (front back : List Element) :
    numberedFrom n (front ++ back) =
      numberedFrom n front ++ numberedFrom (n + (takenFrom front).length) back := by
  induction front generalizing n with
  | nil => rfl
  | cons e front ih =>
      have hlength : (takenFrom (e :: front)).length =
          e.taken.length + (takenFrom front).length := by
        rw [takenFrom, List.flatMap_cons, List.length_append]
        rfl
      rw [List.cons_append, numberedFrom, numberedFrom, ih, hlength, List.append_assoc,
        Nat.add_assoc]

/-!
# Seams

A seam is where a label ends and a target begins, in whatever text.
-/

/-- At every seam of the text one of these words begins and is closed by a parenthesis. -/
def SeamsLeadTo (word : List Char → Prop) (cs : List Char) : Prop :=
  ∀ before rest, cs = before ++ seam ++ rest → ∃ w, word w ∧ w ++ [')'] <+: rest

section Seams

variable {word : List Char → Prop} {cs rest : List Char}

theorem seamsLeadTo_nil : SeamsLeadTo word [] := by
  intro before rest h
  cases before <;> cases h

theorem SeamsLeadTo.cons {c : Char} (hc : c ≠ ']') (h : SeamsLeadTo word cs) :
    SeamsLeadTo word (c :: cs) := by
  intro before rest hcs
  cases before with
  | nil =>
      injection hcs with hfirst _
      exact absurd hfirst hc
  | cons d before =>
      injection hcs with _ hmore
      exact h before rest hmore

theorem SeamsLeadTo.append (hcs : ']' ∉ cs) (h : SeamsLeadTo word rest) :
    SeamsLeadTo word (cs ++ rest) := by
  induction cs with
  | nil => exact h
  | cons c cs ih =>
      rw [List.mem_cons, not_or] at hcs
      exact SeamsLeadTo.cons (Ne.symm hcs.left) (ih hcs.right)

theorem SeamsLeadTo.seam {target : List Char} (hword : word target) (hclose : ']' ∉ target)
    (h : SeamsLeadTo word rest) :
    SeamsLeadTo word (']' :: '(' :: (target ++ ')' :: rest)) := by
  have hmore : SeamsLeadTo word ('(' :: (target ++ ')' :: rest)) :=
    ((h.cons (by decide)).append hclose).cons (by decide)
  intro before after hcs
  cases before with
  | nil =>
      injection hcs with _ hcs
      injection hcs with _ hafter
      exists target
      constructor
      · exact hword
      · exists rest
        rw [List.append_assoc]
        exact hafter
  | cons d before =>
      injection hcs with _ hrest
      exact hmore before after hrest

theorem SeamsLeadTo.link {label target : List Char} (hlabel : ']' ∉ label)
    (hword : word target) (hclose : ']' ∉ target) (h : SeamsLeadTo word rest) :
    SeamsLeadTo word (writeLink label target ++ rest) := by
  rw [writeLink_append]
  exact ((h.seam hword hclose).append hlabel).cons (by decide)

theorem SeamsLeadTo.element {n : Nat} {e : Element} (hnumber : e.taken ≠ [] → word (Text.digits n))
    (hleft : ∀ target ∈ e.left, word target.chars) (h : SeamsLeadTo word rest) :
    SeamsLeadTo word (e.numbered n ++ rest) := by
  have hphrase : ∀ p : Phrase, ']' ∉ p.chars := fun p => notMem_of_unmarked p.unmarked rfl
  have hdigits : ']' ∉ Text.digits n := by
    intro hmem
    exact absurd (Text.isAsciiDigit_of_mem_digits hmem) (by decide)
  cases e with
  | text run => exact h.append (notMem_of_unmarked run.unmarked rfl)
  | link label target =>
      exact h.link (hphrase label) (hnumber (List.cons_ne_nil _ _)) hdigits
  | image alt source =>
      rw [Element.numbered, List.cons_append]
      exact (h.link (hphrase alt) (hnumber (List.cons_ne_nil _ _)) hdigits).cons (by decide)
  | linkedImage alt source target =>
      have hshape : Element.numbered n (.linkedImage alt source target) ++ rest =
          '[' :: '!' :: '[' :: (alt.chars ++ ']' :: '(' :: (Text.digits n ++ ')' ::
            ']' :: '(' :: (target.chars ++ ')' :: rest))) := by
        simp [Element.numbered, writeLink]
      have htarget := h.seam (hleft target List.mem_cons_self) (hphrase target)
      have hsource := htarget.seam (hnumber (List.cons_ne_nil _ _)) hdigits
      rw [hshape]
      exact (((hsource.append (hphrase alt)).cons (by decide)).cons (by decide)).cons (by decide)

/-- The numbers from `n` on and the destinations that were left are all that seams lead to. -/
theorem seamsLeadTo_numberedFrom {n : Nat} {es : List Element}
    (hnumbers : ∀ k < (takenFrom es).length, word (Text.digits (n + k)))
    (hleft : ∀ target ∈ leftIn es, word target.chars) :
    SeamsLeadTo word (numberedFrom n es) := by
  induction es generalizing n with
  | nil => exact seamsLeadTo_nil
  | cons e es ih =>
      have htaken : takenFrom (e :: es) = e.taken ++ takenFrom es := List.flatMap_cons
      have hall : leftIn (e :: es) = e.left ++ leftIn es := List.flatMap_cons
      rw [htaken, List.length_append] at hnumbers
      rw [hall, List.forall_mem_append] at hleft
      apply SeamsLeadTo.element
      · intro hne
        apply hnumbers 0
        exact Nat.add_pos_left (List.length_pos_of_ne_nil hne) _
      · exact hleft.left
      · apply ih
        · intro k hk
          rw [Nat.add_assoc]
          exact hnumbers (e.taken.length + k) (Nat.add_lt_add_left hk _)
        · exact hleft.right

end Seams

/-- A word on one line that begins at a seam of a chunk is in that chunk to its end. -/
theorem seamsLeadTo_chunk {chunks : List String} (hmeet : chunks.IsChain MeetAtHeading)
    {word : List Char → Prop} (hline : ∀ w, word w → '\n' ∉ w)
    (h : SeamsLeadTo word (String.join chunks).toList) :
    ∀ chunk ∈ chunks, SeamsLeadTo word chunk.toList := by
  intro chunk hchunk before rest hsplit
  rcases List.mem_iff_append.mp hchunk with ⟨earlier, later, rfl⟩
  have hwhole : (String.join (earlier ++ chunk :: later)).toList =
      ((String.join earlier).toList ++ before) ++ seam ++ (rest ++ (String.join later).toList) := by
    rw [String.join_append, String.join_cons, String.toList_append, String.toList_append, hsplit]
    simp only [List.append_assoc]
  rcases h _ _ hwhole with ⟨w, hw, hword⟩
  exists w
  constructor
  · exact hw
  · rcases List.prefix_or_prefix_of_prefix hword (List.prefix_append rest _) with hin | hout
    · exact hin
    · cases later with
      | nil => simpa using hword
      | cons next later =>
          exfalso
          have hends := (List.isChain_cons_cons.mp (List.isChain_append.mp hmeet).right.left).left
          have hsplit' : chunk.toList = (before ++ [']']) ++ '(' :: rest := by
            rw [hsplit]
            simp [seam]
          have hnewline := newline_mem_of_meet hends hsplit' (List.cons_ne_nil _ _)
          have hrest := (List.mem_cons.mp hnewline).resolve_left (by decide)
          rcases List.mem_append.mp (hout.subset hrest) with hmem | hparen
          · exact hline w hw hmem
          · exact absurd hparen (by decide)

/-!
# What a translator sees
-/

/-- Behind every seam of a chunk stands a number of the table. -/
def ShowsNumbers (document : Document) : Prop :=
  ∀ chunk ∈ document.chunks,
    SeamsLeadTo (fun w => ∃ n < document.links.length, w = Text.digits n) chunk.toList

def KeepsAll (document : Document) (es : List Element) : Prop :=
  ∀ target ∈ es.flatMap Element.destinations, target.text ∈ document.links

theorem keepsAll_of_left_nil {es : List Element} {document : Document}
    (hlinks : document.links = (takenFrom es).map Phrase.text) (hleft : leftIn es = []) :
    KeepsAll document es := by
  intro target htarget
  rcases List.mem_flatMap.mp htarget with ⟨e, he, hmem⟩
  rw [e.destinations_eq, List.mem_append] at hmem
  rw [hlinks]
  apply List.mem_map_of_mem
  rcases hmem with htaken | hstays
  · exact List.mem_flatMap.mpr ⟨e, he, htaken⟩
  · have hin : target ∈ leftIn es := List.mem_flatMap.mpr ⟨e, he, hstays⟩
    rw [hleft] at hin
    cases hin

/-- The table holds all destinations but those of linked images, and these stay in the chunks, each
one behind its image. Without linked images no destination is in a chunk and all are in the
table. -/
theorem only_linked_images_leave_destinations (window : Nat) (es : List Element) :
    let document := ofText .markdown window (String.ofList (writeElements es))
    document.links = (takenFrom es).map Phrase.text ∧
      (String.join document.chunks).toList = numberedFrom 0 es ∧
      (∀ chunk ∈ document.chunks,
        SeamsLeadTo
          (fun w => (∃ n < document.links.length, w = Text.digits n) ∨
            ∃ target ∈ leftIn es, w = target.chars)
          chunk.toList) ∧
      (∀ front alt source target back,
        es = front ++ .linkedImage alt source target :: back →
          LiesInChunk document.chunks (numberedFrom 0 front)
            (Element.numbered (takenFrom front).length (.linkedImage alt source target))
            (numberedFrom ((takenFrom front).length + 1) back)) ∧
      (leftIn es = [] → ShowsNumbers document ∧ KeepsAll document es) := by
  intro document
  have hnumbered := numberLinks_writeElements es
  have hlinks : document.links = (takenFrom es).map Phrase.text := congrArg Prod.snd hnumbered
  have hjoin : (String.join document.chunks).toList = numberedFrom 0 es := by
    rw [join_markdown_chunks, hnumbered, String.toList_ofList]
  have hmeet : document.chunks.IsChain MeetAtHeading := markdown_chunks_meet window _
  have hseams : ∀ chunk ∈ document.chunks,
      SeamsLeadTo
        (fun w => (∃ n < document.links.length, w = Text.digits n) ∨
          ∃ target ∈ leftIn es, w = target.chars)
        chunk.toList := by
    apply seamsLeadTo_chunk hmeet
    · rintro w (⟨n, _, rfl⟩ | ⟨target, _, rfl⟩)
      · exact newline_notMem_digits n
      · exact target.oneLine
    · rw [hjoin]
      apply seamsLeadTo_numberedFrom
      · intro k hk
        refine Or.inl ⟨k, ?_, by rw [Nat.zero_add]⟩
        rw [hlinks, List.length_map]
        exact hk
      · intro target htarget
        exact Or.inr ⟨target, htarget, rfl⟩
  constructor
  · exact hlinks
  constructor
  · exact hjoin
  constructor
  · exact hseams
  constructor
  · intro front alt source target back hes
    apply liesInChunk_of_oneLine hmeet
    · have halt := newline_notMem_writeLink alt.oneLine
        (newline_notMem_digits (takenFrom front).length)
      apply newline_notMem_writeLink _ target.oneLine
      rw [List.mem_cons, not_or]
      exact ⟨by decide, halt⟩
    · exact List.cons_ne_nil _ _
    · rw [hjoin, hes, numberedFrom_append, numberedFrom, Nat.zero_add, List.append_assoc]
      rfl
  · intro hleft
    constructor
    · intro chunk hchunk before rest hsplit
      rcases hseams chunk hchunk before rest hsplit with ⟨w, hnumber | ⟨target, hmem, _⟩, hw⟩
      · exact ⟨w, hnumber, hw⟩
      · rw [hleft] at hmem
        cases hmem
    · exact keepsAll_of_left_nil hlinks hleft

/-- A link and a linked image in one document, and the link alone in another one. -/
theorem only_linked_images_leave_destinations_of_badge :
    let link : List Element :=
      [.text ⟨['A', ' '], by simp [isMark]⟩,
        .link (.single 't' rfl (by decide)) (.single 'u' rfl (by decide))]
    let badge : Element :=
      .linkedImage (.single 'a' rfl (by decide))
        (.single 's' rfl (by decide)) (.single 'v' rfl (by decide))
    let whole := ofText .markdown 100 (String.ofList (writeElements (link ++ badge :: link)))
    whole.chunks = ["A [t](0)[![a](1)](v)A [t](2)"] ∧
      whole.links = ["u", "s", "u"] ∧
      LiesInChunk whole.chunks "A [t](0)".toList "[![a](1)](v)".toList "A [t](2)".toList ∧
      ShowsNumbers (ofText .markdown 100 (String.ofList (writeElements link))) := by
  intro link badge whole
  have hchunks : whole.chunks = ["A [t](0)[![a](1)](v)A [t](2)"] := by decide +kernel
  have hlinks : whole.links = ["u", "s", "u"] := by decide +kernel
  have hfront : numberedFrom 0 link = "A [t](0)".toList := by decide +kernel
  have hbadge : badge.numbered (takenFrom link).length = "[![a](1)](v)".toList := by
    decide +kernel
  have hback : numberedFrom ((takenFrom link).length + 1) link = "A [t](2)".toList := by
    decide +kernel
  rcases only_linked_images_leave_destinations 100 (link ++ badge :: link) with
    ⟨_, _, _, hstays, _⟩
  rcases only_linked_images_leave_destinations 100 link with ⟨_, _, _, _, hnone⟩
  constructor
  · exact hchunks
  constructor
  · exact hlinks
  constructor
  · rw [← hfront, ← hbadge, ← hback]
    exact hstays link _ _ _ link rfl
  · exact (hnone rfl).left

/-- Where the linked image leads is in the chunk and not in the table. -/
theorem destination_of_linked_image_is_shown :
    let badge : Element :=
      .linkedImage (.single 'a' rfl (by decide))
        (.single 's' rfl (by decide)) (.single 'u' rfl (by decide))
    let document := ofText .markdown 100 (String.ofList (writeElements [badge]))
    String.ofList (writeElements [badge]) = "[![a](s)](u)" ∧
      document.chunks = ["[![a](0)](u)"] ∧
      document.links = ["s"] ∧
      ¬ ShowsNumbers document ∧
      ¬ KeepsAll document [badge] := by
  intro badge document
  have hchunks : document.chunks = ["[![a](0)](u)"] := by decide +kernel
  have hlinks : document.links = ["s"] := by decide +kernel
  have hzero : Text.digits 0 = ['0'] := by decide +kernel
  constructor
  · decide +kernel
  constructor
  · exact hchunks
  constructor
  · exact hlinks
  constructor
  · intro hshows
    rw [ShowsNumbers, hchunks, hlinks] at hshows
    rcases hshows _ List.mem_cons_self "[![a](0)".toList ['u', ')'] (by decide) with
      ⟨w, ⟨n, hn, rfl⟩, hprefix⟩
    rw [Nat.lt_one_iff.mp hn, hzero] at hprefix
    exact absurd hprefix (by decide)
  · intro hkeeps
    rw [KeepsAll, hlinks] at hkeeps
    have htarget := hkeeps (.single 'u' rfl (by decide))
      (List.mem_cons_of_mem _ List.mem_cons_self)
    exact absurd htarget (by decide)

end Document
end Parley
