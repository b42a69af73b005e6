import AdCoder.Web.HtmlRoundTrip
import AdCoder.Web.PageExtraction

/-!
# When extraction is total and faithful

Each function throws exactly where it decodes, outside the reading of an address, a text with a
reference past the last code point. What it returns keeps to the limits.
-/

namespace AdCoder.Web

open Foundation

/-- The address of a page. -/
def HttpUrl (url : Units) : Prop :=
  "http:".toList ++ ['/', '/'] <+: url ∨ "https:".toList ++ ['/', '/'] <+: url

/-- Addresses of pages, without repetition and within a limit. -/
structure Collected (most : Nat) (urls : List Units) : Prop where
  few : urls.length ≤ most
  http : ∀ url ∈ urls, HttpUrl url
  distinct : urls.Nodup

/-- A title and the address of a page on two lines. -/
def ResultLines (result : Units) : Prop :=
  ∃ title url, result = title ++ '\n' :: url ∧ title ≠ [] ∧ '\n' ∉ title ∧ HttpUrl url

/-- The three functions return, within their limits. -/
structure Extracts (host : PageHost) (html base : Units) (limits : PageLimits) : Prop where
  text : ∃ text, htmlToText html limits.maxTextChars = some text ∧
    text.length ≤ limits.maxTextChars
  page : ∃ page, extractPage host html base limits = some page ∧
    page.text.length ≤ limits.maxTextChars ∧ Collected limits.maxLinks (page.links.map (·.url)) ∧
    Collected limits.maxImages (page.images.map (·.url))
  results : ∃ results, parseDuckDuckGoResults host html limits.maxResults = some results ∧
    results.length ≤ limits.maxResults ∧ ∀ result ∈ results, ResultLines result

/-! ## The texts that are decoded -/

section Decoded

variable (host : PageHost)

/-- The bodies of the anchors that are taken. -/
def linkTexts (base : Units) (maxLinks : Nat) : List (List Units) → List Units → List Units
  | [], _ => []
  | found :: rest, seen =>
      match linkUrl host base found with
      | none => linkTexts base maxLinks rest seen
      | some url =>
          if url ∈ seen then linkTexts base maxLinks rest seen
          else stripTags (found.getD 3 []) ::
            if maxLinks ≤ seen.length + 1 then [] else linkTexts base maxLinks rest (seen ++ [url])

/-- The alternative texts of the images that are looked at. -/
def imageTexts (base : Units) (maxImages : Nat) : List (List Units) → List Units → List Units
  | [], _ => []
  | found :: rest, seen =>
      match imageUrl host base found with
      | none => imageTexts base maxImages rest seen
      | some url =>
          if url ∈ seen then imageTexts base maxImages rest seen
          else
            let alt := (htmlAttribute (found.getD 1 []) "alt").getD []
            alt :: match decodeHtml alt with
              | none => []
              | some decoded =>
                  if decorative host url (trimList decoded) (found.getD 1 []) then
                    imageTexts base maxImages rest seen
                  else if maxImages ≤ seen.length + 1 then []
                  else imageTexts base maxImages rest (seen ++ [url])

/-- The addresses of the results that are looked at, and the titles of those that can be read. -/
def resultTexts (maxResults : Nat) : List (List Units) → Nat → List Units
  | [], _ => []
  | found :: rest, count =>
      found.getD 1 [] :: match decodeHtml (found.getD 1 []) with
        | none => []
        | some source =>
            match host.parseUrl source searchBase with
            | none => resultTexts maxResults rest count
            | some parsed =>
                stripTags (found.getD 3 []) :: match htmlToText (found.getD 3 []) 500 with
                  | none => []
                  | some title =>
                      let count := if title ≠ [] ∧ startsHttp (parsed.uddg.getD parsed.href) = true
                        then count + 1 else count
                      if maxResults ≤ count then [] else resultTexts maxResults rest count

/-- Every text that is decoded outside the reading of an address. -/
def decodedTexts (html base : Units) (limits : PageLimits) : List Units :=
  stripTags html :: (linkTexts host base limits.maxLinks (matchAll anchor html) [] ++
    imageTexts host base limits.maxImages (matchAll image html) [] ++
    resultTexts host limits.maxResults (matchAll resultAnchor html) 0)

end Decoded

/-! ## Throws -/

variable {host : PageHost} {base html url value : Units} {most maxChars : Nat}
  {found : List (List Units)}

theorem htmlToText_none : htmlToText html maxChars = none ↔ ¬ InRange (stripTags html) := by
  rw [← decodeHtml_none, htmlToText]
  cases decodeHtml (stripTags html) with
  | none => exact iff_of_true rfl rfl
  | some decoded => exact iff_of_false (by simp) (by simp)

theorem htmlToText_eq_some {text : Units} (read : htmlToText html maxChars = some text) :
    ∃ decoded, (trimList (collapseSpaces false decoded)).take maxChars = text := by
  rw [htmlToText] at read
  cases made : decodeHtml (stripTags html) with
  | none =>
      rw [made] at read
      cases read
  | some decoded =>
      rw [made] at read
      exact ⟨decoded, Option.some.inj read⟩

/-- The loop throws at the body of an anchor that it takes. -/
theorem readLinks_none (links : List PageLink) :
    readLinks host base most found links = none ↔
      ∃ text ∈ linkTexts host base most found (links.map (·.url)), ¬ InRange text := by
  induction found generalizing links with
  | nil => simp [readLinks, linkTexts]
  | cons first rest ih =>
      rw [readLinks, linkTexts]
      cases linkUrl host base first with
      | none => exact ih links
      | some url =>
          simp only
          by_cases seen : url ∈ links.map (·.url)
          · rw [if_pos seen, if_pos seen]
            exact ih links
          · rw [if_neg seen, if_neg seen, List.exists_mem_cons_iff,
              ← @htmlToText_none (first.getD 3 []) 300]
            cases htmlToText (first.getD 3 []) 300 with
            | none => exact iff_of_true rfl (Or.inl rfl)
            | some text =>
                simp only [List.length_append, List.length_map, List.length_singleton,
                  reduceCtorEq, false_or]
                by_cases full : most ≤ links.length + 1
                · simp [full]
                · rw [if_neg full, if_neg full, ih]
                  simp

/-- The loop throws at the alternative text of an image that it looks at. -/
theorem readImages_none (images : List PageImage) :
    readImages host base most found images = none ↔
      ∃ text ∈ imageTexts host base most found (images.map (·.url)), ¬ InRange text := by
  induction found generalizing images with
  | nil => simp [readImages, imageTexts]
  | cons first rest ih =>
      rw [readImages, imageTexts]
      cases imageUrl host base first with
      | none => exact ih images
      | some url =>
          simp only
          by_cases seen : url ∈ images.map (·.url)
          · rw [if_pos seen, if_pos seen]
            exact ih images
          · rw [if_neg seen, if_neg seen, List.exists_mem_cons_iff, ← decodeHtml_none]
            cases decodeHtml ((htmlAttribute (first.getD 1 []) "alt").getD []) with
            | none => exact iff_of_true rfl (Or.inl rfl)
            | some decoded =>
                simp only [List.length_append, List.length_map, List.length_singleton,
                  reduceCtorEq, false_or]
                by_cases passed : decorative host url (trimList decoded) (first.getD 1 []) = true
                · rw [if_pos passed, if_pos passed]
                  exact ih images
                · rw [if_neg passed, if_neg passed]
                  by_cases full : most ≤ images.length + 1
                  · simp [full]
                  · rw [if_neg full, if_neg full, ih]
                    simp

/-- The loop throws at an address or a title that it looks at. -/
theorem readResults_none (results : List Units) :
    readResults host most found results = none ↔
      ∃ text ∈ resultTexts host most found results.length, ¬ InRange text := by
  induction found generalizing results with
  | nil => simp [readResults, resultTexts]
  | cons first rest ih =>
      rw [readResults, resultTexts, List.exists_mem_cons_iff, ← decodeHtml_none]
      cases decodeHtml (first.getD 1 []) with
      | none => exact iff_of_true rfl (Or.inl rfl)
      | some source =>
          simp only [reduceCtorEq, false_or]
          cases host.parseUrl source searchBase with
          | none => exact ih results
          | some parsed =>
              simp only
              rw [List.exists_mem_cons_iff, ← @htmlToText_none (first.getD 3 []) 500]
              cases htmlToText (first.getD 3 []) 500 with
              | none => exact iff_of_true rfl (Or.inl rfl)
              | some title =>
                  simp only [reduceCtorEq, false_or]
                  by_cases kept : title ≠ [] ∧ startsHttp (parsed.uddg.getD parsed.href) = true
                  · simp only [if_pos kept, List.length_append, List.length_singleton]
                    split_ifs
                    · simp
                    · rw [ih, List.length_append, List.length_singleton]
                  · simp only [if_neg kept]
                    split_ifs
                    · simp
                    · exact ih results

/-! ## What is returned -/

theorem httpUrl_of_startsHttp (starts : startsHttp url = true) : HttpUrl url := by
  rw [startsHttp, Bool.or_eq_true, List.isPrefixOf_iff_prefix, List.isPrefixOf_iff_prefix] at starts
  exact starts

theorem httpUrl_of_absolute (found : absoluteHttpUrl host value base = some url) :
    HttpUrl url := by
  simp only [absoluteHttpUrl, Option.bind_eq_bind, Option.bind_eq_some_iff] at found
  obtain ⟨_, _, parsed, _, taken⟩ := found
  split_ifs at taken with http
  obtain rfl := Option.some.inj taken
  simp only [isHttp, Bool.or_eq_true, beq_iff_eq] at http
  have starts := parsed.special http
  rcases http with same | same
  · exact Or.inl (same ▸ starts)
  · exact Or.inr (same ▸ starts)

theorem httpUrl_of_linkUrl {first : List Units} (found : linkUrl host base first = some url) :
    HttpUrl url := by
  obtain ⟨_, _, absolute⟩ := Option.bind_eq_some_iff.mp found
  exact httpUrl_of_absolute absolute

theorem httpUrl_of_imageUrl {first : List Units} (found : imageUrl host base first = some url) :
    HttpUrl url := by
  obtain ⟨_, _, absolute⟩ := Option.bind_eq_some_iff.mp found
  split_ifs at absolute
  exact httpUrl_of_absolute absolute

theorem Collected.take {urls : List Units} (h : Collected most urls) (room : urls.length < most)
    (http : HttpUrl url) (new : url ∉ urls) : Collected most (urls ++ [url]) where
  few := by
    rw [List.length_append, List.length_singleton]
    exact room
  http := by
    intro other member
    rcases List.mem_append.mp member with before | last
    · exact h.http other before
    · exact List.mem_singleton.mp last ▸ http
  distinct := by
    refine List.nodup_append.mpr ⟨h.distinct, by simp, ?_⟩
    rintro other before last single rfl
    exact new (List.mem_singleton.mp single ▸ before)

theorem readLinks_collected {links taken : List PageLink}
    (read : readLinks host base most found links = some taken)
    (collected : Collected most (links.map (·.url))) (room : links.length < most) :
    Collected most (taken.map (·.url)) := by
  induction found generalizing links with
  | nil =>
      obtain rfl := Option.some.inj read
      exact collected
  | cons first rest ih =>
      rw [readLinks] at read
      split at read
      · exact ih read collected room
      · next url address =>
          by_cases seen : url ∈ links.map (·.url)
          · rw [if_pos seen] at read
            exact ih read collected room
          · rw [if_neg seen] at read
            split at read
            · cases read
            · next text body =>
                have more := collected.take (by simpa using room) (httpUrl_of_linkUrl address) seen
                simp only [List.length_append, List.length_singleton] at read
                by_cases full : most ≤ links.length + 1
                · rw [if_pos full] at read
                  obtain rfl := Option.some.inj read
                  simpa using more
                · rw [if_neg full] at read
                  exact ih read (by simpa using more) (by simp; omega)

theorem readImages_collected {images taken : List PageImage}
    (read : readImages host base most found images = some taken)
    (collected : Collected most (images.map (·.url))) (room : images.length < most) :
    Collected most (taken.map (·.url)) := by
  induction found generalizing images with
  | nil =>
      obtain rfl := Option.some.inj read
      exact collected
  | cons first rest ih =>
      rw [readImages] at read
      split at read
      · exact ih read collected room
      · next url address =>
          by_cases seen : url ∈ images.map (·.url)
          · rw [if_pos seen] at read
            exact ih read collected room
          · rw [if_neg seen] at read
            split at read
            · cases read
            · next decoded alt =>
                have more := collected.take (by simpa using room) (httpUrl_of_imageUrl address) seen
                simp only [List.length_append, List.length_singleton] at read
                split at read
                · exact ih read collected room
                · split at read
                  · obtain rfl := Option.some.inj read
                    simpa using more
                  · exact ih read (by simpa using more) (by simp; omega)

/-- A text has no line break. -/
theorem newline_of_htmlToText {text : Units} (read : htmlToText html maxChars = some text) :
    '\n' ∉ text := by
  obtain ⟨decoded, rfl⟩ := htmlToText_eq_some read
  intro inside
  have kept : '\n' ∈ collapseSpaces false decoded :=
    (List.dropWhile_sublist _).subset (List.mem_reverse.mp ((List.dropWhile_sublist _).subset
      (List.mem_reverse.mp (List.mem_of_mem_take inside))))
  exact absurd (space_of_collapse kept (by decide)) (by decide)

theorem readResults_lines {results taken : List Units}
    (read : readResults host most found results = some taken) (room : results.length < most)
    (lines : ∀ result ∈ results, ResultLines result) :
    taken.length ≤ most ∧ ∀ result ∈ taken, ResultLines result := by
  induction found generalizing results with
  | nil =>
      obtain rfl := Option.some.inj read
      exact ⟨Nat.le_of_lt room, lines⟩
  | cons first rest ih =>
      rw [readResults] at read
      split at read
      · cases read
      · split at read
        · exact ih read room lines
        · next parsed _ =>
            simp only at read
            split at read
            · cases read
            · next title body =>
                by_cases kept : title ≠ [] ∧ startsHttp (parsed.uddg.getD parsed.href) = true
                · rw [if_pos kept] at read
                  have more : ∀ result ∈ results ++ [title ++ '\n' :: parsed.uddg.getD parsed.href],
                      ResultLines result := by
                    intro result member
                    rcases List.mem_append.mp member with before | last
                    · exact lines result before
                    · exact ⟨title, _, List.mem_singleton.mp last, kept.1,
                        newline_of_htmlToText body, httpUrl_of_startsHttp kept.2⟩
                  have length : (results ++ [title ++ '\n' :: parsed.uddg.getD parsed.href]).length =
                      results.length + 1 := by
                    rw [List.length_append, List.length_singleton]
                  split at read
                  · obtain rfl := Option.some.inj read
                    exact ⟨by omega, more⟩
                  · exact ih read (by omega) more
                · rw [if_neg kept] at read
                  split at read
                  · obtain rfl := Option.some.inj read
                    exact ⟨Nat.le_of_lt room, lines⟩
                  · exact ih read room lines

/-! ## Totality and the round trip -/

/-- No text that is decoded outside the reading of an address has a reference past the last code
point. -/
def DecodesInRange (host : PageHost) (html base : Units) (limits : PageLimits) : Prop :=
  ∀ text ∈ decodedTexts host html base limits, InRange text

theorem collected_nil : Collected most [] := ⟨Nat.zero_le _, by simp, List.nodup_nil⟩

theorem extracts_iff (host : PageHost) (html base : Units) (limits : PageLimits) :
    Extracts host html base limits ↔ DecodesInRange host html base limits := by
  have split : DecodesInRange host html base limits ↔
      htmlToText html limits.maxTextChars ≠ none ∧
        readLinks host base limits.maxLinks (matchAll anchor html) [] ≠ none ∧
        readImages host base limits.maxImages (matchAll image html) [] ≠ none ∧
        parseDuckDuckGoResults host html limits.maxResults ≠ none := by
    rw [ne_eq, ne_eq, ne_eq, ne_eq, htmlToText_none, readLinks_none, readImages_none,
      parseDuckDuckGoResults, readResults_none]
    simp only [DecodesInRange, decodedTexts, List.forall_mem_cons, List.forall_mem_append,
      List.map_nil, List.length_nil, not_exists, not_and, not_not, and_assoc]
  rw [split]
  constructor
  · rintro ⟨⟨text, read, _⟩, ⟨page, made, _⟩, ⟨results, listed, _⟩⟩
    simp only [extractPage, Option.bind_eq_bind, Option.bind_eq_some_iff] at made
    obtain ⟨links, linked, images, pictured, _⟩ := made
    rw [read, linked, pictured, listed]
    exact ⟨nofun, nofun, nofun, nofun⟩
  · rintro ⟨read, linked, pictured, listed⟩
    obtain ⟨text, read⟩ := Option.ne_none_iff_exists'.mp read
    obtain ⟨links, linked⟩ := Option.ne_none_iff_exists'.mp linked
    obtain ⟨images, pictured⟩ := Option.ne_none_iff_exists'.mp pictured
    obtain ⟨results, listed⟩ := Option.ne_none_iff_exists'.mp listed
    have short : text.length ≤ limits.maxTextChars := by
      obtain ⟨decoded, rfl⟩ := htmlToText_eq_some read
      exact List.length_take_le _ _
    obtain ⟨_, someLinks, someImages, someResults⟩ := limits.positive
    refine ⟨⟨text, read, short⟩, ⟨⟨text, links, images⟩, ?_, short, ?_, ?_⟩, ⟨results, listed, ?_⟩⟩
    · simp only [extractPage, linked, pictured, read, Option.bind_eq_bind, Option.bind_some]
      rfl
    · exact readLinks_collected linked collected_nil someLinks
    · exact readImages_collected pictured collected_nil someImages
    · exact readResults_lines listed someResults nofun

/-- The text of an escaped string is the string, up to every limit. -/
def ReadsBack (s : Units) : Prop := InnerSpaces s → ∀ maxChars, 0 < maxChars →
  htmlToText (escapeText entities s) maxChars = some (s.take maxChars)

/-- The three functions return within their limits exactly if no text they decode outside the
reading of an address has a reference past the last code point, and a string is read back exactly
if it has no text of an entity besides the ampersand's. -/
theorem extraction_iff (host : PageHost) (html base s : Units) (limits : PageLimits) :
    (Extracts host html base limits ↔ DecodesInRange host html base limits) ∧
      (ReadsBack s ↔ (InnerSpaces s → Plain s)) :=
  ⟨extracts_iff host html base limits, imp_congr_right roundTrip_iff⟩

/-- A host that reads no address and no number. -/
def plainPageHost : PageHost := ⟨fun _ _ => none, fun _ => .nan⟩

def onePageLimits : PageLimits := ⟨1, 1, 1, 1, by decide⟩

/-- A page of one reference past the last code point throws, and the text of an entity is not
read back. -/
theorem extraction_refuted :
    ¬ Extracts plainPageHost ['&', '#', '1', '1', '1', '4', '1', '1', '2', ';'] [] onePageLimits ∧
      ¬ ReadsBack ['&', 'l', 't', ';'] := by
  constructor
  · intro extracts
    obtain ⟨text, read, _⟩ := extracts.text
    have throws : htmlToText ['&', '#', '1', '1', '1', '4', '1', '1', '2', ';'] 1 = none := by
      rw [htmlToText, stripTags_eq_self (by decide), show decodeHtml
        ['&', '#', '1', '1', '1', '4', '1', '1', '2', ';'] = none by decide +kernel]
      rfl
    rw [show onePageLimits.maxTextChars = 1 from rfl, throws] at read
    cases read
  · intro back
    have inner : InnerSpaces ['&', 'l', 't', ';'] := by decide
    obtain ⟨absent, _⟩ := (roundTrip_iff inner).mp (back inner)
    exact absent ('<', ['&', 'l', 't', ';']) (by decide) (List.infix_refl _)

end AdCoder.Web
