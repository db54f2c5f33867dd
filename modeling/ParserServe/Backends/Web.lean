import Mathlib.Data.List.Basic
import ParserServe.Foundation.Text

/-! # Web pages

`backends/web.py`: the callbacks by which `_ReadableHtmlParser` collects the title, the text and
the links of a page.  `HTMLParser` calls them; an empty element such as `<br/>` is a start and an
end.
-/

namespace ParserServe

open Foundation

/-- `" ".join(data.split())`. -/
def collapse (data : List Char) : List Char :=
  [' '].intercalate ((data.splitOnP isSpace).filter (· ≠ []))

abbrev HtmlAttrs := List (List Char × Option (List Char))

inductive HtmlEvent
  | start (tag : List Char) (attrs : HtmlAttrs)
  | stop (tag : List Char)
  | data (text : List Char)

/-- The fields of the parser. -/
structure ReadableHtml where
  hiddenDepth : Nat := 0
  inTitle : Bool := false
  titleParts : List (List Char) := []
  textParts : List (List Char) := []
  links : List (List Char × Option (List Char)) := []
  currentLink : Option (List Char) := none
  currentLinkText : List (List Char) := []
  deriving DecidableEq

def hiddenTags : List (List Char) :=
  ["script", "style", "noscript", "template"].map String.toList

/-- The elements whose content is not read. -/
def hides (tag : List Char) : Bool := hiddenTags.contains (casefold tag)

/-- `normalized == name`. -/
def named (name : String) (tag : List Char) : Bool := casefold tag = name.toList

/-- `dict(attrs).get("href")`: the last one counts. -/
def hrefOf (attrs : HtmlAttrs) : Option (List Char) :=
  ((attrs.reverse.find? (·.1 = "href".toList)).bind (·.2)).filter (· ≠ [])

/-- `urljoin` with the base URL, if there is one, and the scheme `urlparse` finds in the result;
`none` when one of them raises. -/
abbrev LinkResolver := List Char → Option (List Char × List Char)

/-- The link of an anchor with these attributes, `some none` if it has none. -/
def anchorLink (resolve : LinkResolver) (attrs : HtmlAttrs) : Option (Option (List Char)) :=
  match hrefOf attrs with
  | none => some none
  | some href => (resolve href).map fun (candidate, scheme) =>
      if scheme = "http".toList ∨ scheme = "https".toList then some candidate else none

/-- `" ".join(parts).strip() or None`. -/
def joinedText (parts : List (List Char)) : Option (List Char) :=
  let text := strip ([' '].intercalate parts)
  if text = [] then none else some text

variable (resolve : LinkResolver)

def ReadableHtml.handleStarttag (state : ReadableHtml) (tag : List Char) (attrs : HtmlAttrs) :
    Option ReadableHtml :=
  if hides tag then some { state with hiddenDepth := state.hiddenDepth + 1 }
  else if state.hiddenDepth ≠ 0 then some state
  else
    let state := if named "title" tag then { state with inTitle := true } else state
    if named "a" tag then
      (anchorLink resolve attrs).map fun
        | none => state
        | some candidate => { state with currentLink := some candidate, currentLinkText := [] }
    else some state

def ReadableHtml.handleEndtag (state : ReadableHtml) (tag : List Char) : ReadableHtml :=
  if hides tag then { state with hiddenDepth := state.hiddenDepth - 1 }
  else if state.hiddenDepth ≠ 0 then state
  else
    let state := if named "title" tag then { state with inTitle := false } else state
    match named "a" tag, state.currentLink with
    | true, some link => { state with
        links := state.links ++ [(link, joinedText state.currentLinkText)]
        currentLink := none
        currentLinkText := [] }
    | _, _ => state

def ReadableHtml.handleData (state : ReadableHtml) (data : List Char) : ReadableHtml :=
  if state.hiddenDepth ≠ 0 then state
  else
    let text := collapse data
    if text = [] then state
    else
      let state :=
        if state.inTitle then { state with titleParts := state.titleParts ++ [text] }
        else { state with textParts := state.textParts ++ [text] }
      if state.currentLink.isSome then
        { state with currentLinkText := state.currentLinkText ++ [text] }
      else state

def ReadableHtml.handle (state : ReadableHtml) : HtmlEvent → Option ReadableHtml
  | .start tag attrs => state.handleStarttag resolve tag attrs
  | .stop tag => some (state.handleEndtag tag)
  | .data text => some (state.handleData text)

/-- `parser.feed(html)`; `none` when a callback raises. -/
def ReadableHtml.feed (state : ReadableHtml) (events : List HtmlEvent) : Option ReadableHtml :=
  events.foldlM (ReadableHtml.handle resolve) state

variable {resolve : LinkResolver} {state state' : ReadableHtml} {events : List HtmlEvent}

theorem feed_append {more : List HtmlEvent} :
    state.feed resolve (events ++ more) =
      (state.feed resolve events).bind (·.feed resolve more) := by
  simp only [ReadableHtml.feed, List.foldlM_append]
  rfl

@[simp] theorem feed_nil : state.feed resolve [] = some state := rfl

theorem feed_cons {event : HtmlEvent} : state.feed resolve (event :: events) =
    (state.handle resolve event).bind (·.feed resolve events) := rfl

/-! ## Visible events -/

/-- The link that an anchor opens. -/
def ReadableHtml.openLink (state : ReadableHtml) : Option (List Char) → ReadableHtml
  | none => state
  | some candidate => { state with currentLink := some candidate, currentLinkText := [] }

/-- The end of an anchor closes the link that is open. -/
def ReadableHtml.closeLink (state : ReadableHtml) : ReadableHtml :=
  match state.currentLink with
  | none => state
  | some link => { state with
      links := state.links ++ [(link, joinedText state.currentLinkText)]
      currentLink := none
      currentLinkText := [] }

theorem handle_start (hdepth : state.hiddenDepth = 0) {tag : List Char} (hhides : hides tag = false)
    {attrs : HtmlAttrs} : state.handle resolve (.start tag attrs) =
      if named "a" tag then
        (anchorLink resolve attrs).map
          { state with inTitle := state.inTitle || named "title" tag }.openLink
      else some { state with inTitle := state.inTitle || named "title" tag } := by
  have hstate : (if named "title" tag then { state with inTitle := true } else state) =
      { state with inTitle := state.inTitle || named "title" tag } := by
    cases htitle : named "title" tag <;> simp
  rw [ReadableHtml.handle, ReadableHtml.handleStarttag, if_neg (by simp [hhides]),
    if_neg (by simp [hdepth])]
  simp only [hstate]
  rfl

theorem handle_stop (hdepth : state.hiddenDepth = 0) {tag : List Char}
    (hhides : hides tag = false) : state.handle resolve (.stop tag) =
      some (if named "a" tag then
          { state with inTitle := state.inTitle && !named "title" tag }.closeLink
        else { state with inTitle := state.inTitle && !named "title" tag }) := by
  have hstate : (if named "title" tag then { state with inTitle := false } else state) =
      { state with inTitle := state.inTitle && !named "title" tag } := by
    cases htitle : named "title" tag <;> simp
  rw [ReadableHtml.handle, ReadableHtml.handleEndtag, if_neg (by simp [hhides]),
    if_neg (by simp [hdepth])]
  simp only [hstate, ReadableHtml.closeLink]
  cases hanchor : named "a" tag <;> cases hlink : state.currentLink <;> rfl

/-- A text as it is collected, and whether it stands in the title. -/
abbrev ShownText := Bool × List Char

def shownText (inTitle : Bool) (data : List Char) : List ShownText :=
  if collapse data = [] then [] else [(inTitle, collapse data)]

/-- The state after some texts and links. -/
def ReadableHtml.read (state : ReadableHtml) (texts : List ShownText)
    (links : List (List Char × Option (List Char))) : ReadableHtml :=
  { state with
    titleParts := state.titleParts ++ (texts.filter (·.1)).map (·.2)
    textParts := state.textParts ++ (texts.filter (!·.1)).map (·.2)
    links := state.links ++ links
    currentLinkText :=
      if state.currentLink.isSome then state.currentLinkText ++ texts.map (·.2)
      else state.currentLinkText }

@[simp] theorem read_nil : state.read [] [] = state := by
  simp [ReadableHtml.read]

theorem read_read {texts texts' : List ShownText}
    {links links' : List (List Char × Option (List Char))} :
    (state.read texts links).read texts' links' =
      state.read (texts ++ texts') (links ++ links') := by
  cases hlink : state.currentLink <;> simp [ReadableHtml.read, hlink]

theorem handle_data (hdepth : state.hiddenDepth = 0) {data : List Char} :
    state.handle resolve (.data data) = some (state.read (shownText state.inTitle data) []) := by
  rw [ReadableHtml.handle, ReadableHtml.handleData, if_neg (by simp [hdepth])]
  by_cases htext : collapse data = []
  · simp [shownText, htext]
  · cases htitle : state.inTitle <;> cases hlink : state.currentLink <;>
      simp [ReadableHtml.read, shownText, htext, htitle, hlink]

/-- A visible event leaves the parser outside the hidden elements. -/
theorem hiddenDepth_handle {event : HtmlEvent} {state' : ReadableHtml}
    (hdepth : state.hiddenDepth = 0)
    (hvisible : ∀ tag, (event = .stop tag ∨ ∃ attrs, event = .start tag attrs) → hides tag = false)
    (h : state.handle resolve event = some state') : state'.hiddenDepth = 0 := by
  cases event with
  | start tag attrs =>
      rw [handle_start hdepth (hvisible tag (.inr ⟨attrs, rfl⟩))] at h
      split at h
      · obtain ⟨candidate, -, rfl⟩ := Option.map_eq_some_iff.mp h
        cases candidate <;> exact hdepth
      · cases h
        exact hdepth
  | stop tag =>
      rw [handle_stop hdepth (hvisible tag (.inl rfl))] at h
      cases h
      split
      · rw [ReadableHtml.closeLink]
        split <;> exact hdepth
      · exact hdepth
  | data text =>
      rw [handle_data hdepth] at h
      cases h
      exact hdepth

/-! ## Hidden content -/

/-- The events of a page without its hidden elements, at a depth inside them. -/
def visibleEvents : Nat → List HtmlEvent → List HtmlEvent
  | _, [] => []
  | depth, .start tag attrs :: events =>
      if hides tag then visibleEvents (depth + 1) events
      else if depth ≠ 0 then visibleEvents depth events
      else .start tag attrs :: visibleEvents depth events
  | depth, .stop tag :: events =>
      if hides tag then visibleEvents (depth - 1) events
      else if depth ≠ 0 then visibleEvents depth events
      else .stop tag :: visibleEvents depth events
  | depth, .data text :: events =>
      if depth ≠ 0 then visibleEvents depth events
      else .data text :: visibleEvents depth events

/-- The state outside the hidden elements. -/
def ReadableHtml.outside (state : ReadableHtml) : ReadableHtml := { state with hiddenDepth := 0 }

theorem outside_of_visible (h : state.hiddenDepth = 0) : state.outside = state := by
  rw [ReadableHtml.outside, ← h]

/-- An event moves in or out of the hidden elements, is not read there, or is read. -/
theorem handle_cases (resolve : LinkResolver) (state : ReadableHtml) (event : HtmlEvent) :
    (∃ depth, state.handle resolve event = some { state with hiddenDepth := depth } ∧
        ∀ events, visibleEvents state.hiddenDepth (event :: events) = visibleEvents depth events) ∨
      (state.hiddenDepth = 0 ∧
        (∀ state', state.handle resolve event = some state' → state'.hiddenDepth = 0) ∧
        ∀ events, visibleEvents state.hiddenDepth (event :: events) =
          event :: visibleEvents 0 events) := by
  by_cases hdepth : state.hiddenDepth = 0
  · cases event with
    | start tag attrs =>
        cases hhides : hides tag with
        | true => exact .inl ⟨state.hiddenDepth + 1,
            by simp [ReadableHtml.handle, ReadableHtml.handleStarttag, hhides],
            fun _ => by simp [visibleEvents, hhides]⟩
        | false => exact .inr ⟨hdepth,
            fun _ => hiddenDepth_handle hdepth (by grind),
            fun _ => by simp [visibleEvents, hhides, hdepth]⟩
    | stop tag =>
        cases hhides : hides tag with
        | true => exact .inl ⟨state.hiddenDepth - 1,
            by simp [ReadableHtml.handle, ReadableHtml.handleEndtag, hhides],
            fun _ => by simp [visibleEvents, hhides]⟩
        | false => exact .inr ⟨hdepth,
            fun _ => hiddenDepth_handle hdepth (by grind),
            fun _ => by simp [visibleEvents, hhides, hdepth]⟩
    | data text => exact .inr ⟨hdepth, fun _ => hiddenDepth_handle hdepth (by grind),
        fun _ => by simp [visibleEvents, hdepth]⟩
  · cases event with
    | start tag attrs =>
        refine .inl ⟨if hides tag then state.hiddenDepth + 1 else state.hiddenDepth, ?_, ?_⟩
        · cases hhides : hides tag <;>
            simp [ReadableHtml.handle, ReadableHtml.handleStarttag, hhides, hdepth]
        · cases hhides : hides tag <;> simp [visibleEvents, hhides, hdepth]
    | stop tag =>
        refine .inl ⟨if hides tag then state.hiddenDepth - 1 else state.hiddenDepth, ?_, ?_⟩
        · cases hhides : hides tag <;>
            simp [ReadableHtml.handle, ReadableHtml.handleEndtag, hhides, hdepth]
        · cases hhides : hides tag <;> simp [visibleEvents, hhides, hdepth]
    | data text => exact .inl ⟨state.hiddenDepth,
        by simp [ReadableHtml.handle, ReadableHtml.handleData, hdepth],
        fun _ => by simp [visibleEvents, hdepth]⟩

/-- What stands in hidden elements is not read, however the tags are nested: the parser reads
a page like the same page without them. -/
theorem hidden_not_read (resolve : LinkResolver) (state : ReadableHtml) (events : List HtmlEvent) :
    (state.feed resolve events).map (·.outside) =
      state.outside.feed resolve (visibleEvents state.hiddenDepth events) := by
  induction events generalizing state with
  | nil => simp [visibleEvents]
  | cons event events ih =>
      rcases handle_cases resolve state event with
        ⟨depth, hhandle, hvisible⟩ | ⟨hdepth, hkept, hvisible⟩
      · rw [feed_cons, hhandle, hvisible]
        exact ih { state with hiddenDepth := depth }
      · rw [feed_cons, hvisible, outside_of_visible hdepth, feed_cons]
        cases hhandle : state.handle resolve event with
        | none => rfl
        | some state' =>
            have hnext := ih state'
            rw [hkept state' hhandle, outside_of_visible (hkept state' hhandle)] at hnext
            exact hnext

/-! ## Pages as trees -/

/-- A node of a page; `void` is a start without an end, as `<br>` or an open `<p>`. -/
inductive HtmlNode
  | text (data : List Char)
  | void (tag : List Char) (attrs : HtmlAttrs)
  | element (tag : List Char) (attrs : HtmlAttrs) (children : List HtmlNode)

mutual

def HtmlNode.events : HtmlNode → List HtmlEvent
  | .text data => [.data data]
  | .void tag attrs => [.start tag attrs]
  | .element tag attrs children => .start tag attrs :: (pageEvents children ++ [.stop tag])

/-- The calls that `HTMLParser` makes of the parser for a page. -/
def pageEvents : List HtmlNode → List HtmlEvent
  | [] => []
  | node :: nodes => node.events ++ pageEvents nodes

end

mutual

def HtmlNode.orderly (hidden inLink inTitle : Bool) : HtmlNode → Bool
  | .text _ => true
  | .void tag _ => !hides tag && (hidden || !(named "a" tag || named "title" tag))
  | .element tag _ children =>
      (hidden || hides tag || !(inLink && named "a" tag || inTitle && named "title" tag)) &&
        pageOrderly (hidden || hides tag) (inLink || named "a" tag) (inTitle || named "title" tag)
          children

/-- Hidden elements, links and titles are closed, and outside hidden elements no link stands in a
link and no title in a title. -/
def pageOrderly (hidden inLink inTitle : Bool) : List HtmlNode → Bool
  | [] => true
  | node :: nodes => node.orderly hidden inLink inTitle && pageOrderly hidden inLink inTitle nodes

end

mutual

def HtmlNode.texts (inTitle : Bool) : HtmlNode → List ShownText
  | .text data => shownText inTitle data
  | .void _ _ => []
  | .element tag _ children =>
      if hides tag then [] else pageTexts (inTitle || named "title" tag) children

/-- The texts of a page outside its hidden elements. -/
def pageTexts (inTitle : Bool) : List HtmlNode → List ShownText
  | [] => []
  | node :: nodes => node.texts inTitle ++ pageTexts inTitle nodes

end

mutual

def HtmlNode.links (resolve : LinkResolver) :
    HtmlNode → Option (List (List Char × Option (List Char)))
  | .text _ => some []
  | .void _ _ => some []
  | .element tag attrs children =>
      if hides tag then some []
      else if named "a" tag then
        (anchorLink resolve attrs).map fun link =>
          link.toList.map fun url => (url, joinedText ((pageTexts false children).map (·.2)))
      else pageLinks resolve children

/-- The links of a page with their texts; `none` when one cannot be resolved. -/
def pageLinks (resolve : LinkResolver) :
    List HtmlNode → Option (List (List Char × Option (List Char)))
  | [] => some []
  | node :: nodes =>
      (node.links resolve).bind fun links => (pageLinks resolve nodes).map (links ++ ·)

end

mutual

theorem HtmlNode.feed_hidden (node : HtmlNode) {state : ReadableHtml} {inLink inTitle : Bool}
    (hdepth : state.hiddenDepth ≠ 0) (h : node.orderly true inLink inTitle) :
    state.feed resolve node.events = some state := by
  cases node with
  | text data =>
      simp [HtmlNode.events, feed_cons, ReadableHtml.handle, ReadableHtml.handleData, hdepth]
  | void tag attrs =>
      simp only [HtmlNode.orderly, Bool.true_or, Bool.and_true, Bool.not_eq_true'] at h
      simp [HtmlNode.events, feed_cons, ReadableHtml.handle, ReadableHtml.handleStarttag, h, hdepth]
  | element tag attrs children =>
      simp only [HtmlNode.orderly, Bool.true_or, Bool.true_and] at h
      cases hhides : hides tag with
      | true =>
          have hdeeper : { state with hiddenDepth := state.hiddenDepth + 1 }.hiddenDepth ≠ 0 :=
            Nat.succ_ne_zero _
          rw [HtmlNode.events, feed_cons, ReadableHtml.handle, ReadableHtml.handleStarttag,
            if_pos hhides, Option.bind_some, feed_append, pageFeed_hidden children hdeeper h]
          simp [feed_cons, ReadableHtml.handle, ReadableHtml.handleEndtag, hhides]
      | false =>
          rw [HtmlNode.events, feed_cons, ReadableHtml.handle, ReadableHtml.handleStarttag,
            if_neg (by simp [hhides]), if_pos hdepth, Option.bind_some, feed_append,
            pageFeed_hidden children hdepth h]
          simp [feed_cons, ReadableHtml.handle, ReadableHtml.handleEndtag, hhides, hdepth]

/-- Nothing in a hidden element is read. -/
theorem pageFeed_hidden (nodes : List HtmlNode) {state : ReadableHtml} {inLink inTitle : Bool}
    (hdepth : state.hiddenDepth ≠ 0) (h : pageOrderly true inLink inTitle nodes) :
    state.feed resolve (pageEvents nodes) = some state := by
  cases nodes with
  | nil => rfl
  | cons node nodes =>
      simp only [pageOrderly, Bool.and_eq_true] at h
      rw [pageEvents, feed_append, node.feed_hidden hdepth h.1]
      exact pageFeed_hidden nodes hdepth h.2

end

mutual

theorem HtmlNode.links_in_link (node : HtmlNode) {inTitle : Bool}
    (h : node.orderly false true inTitle) : node.links resolve = some [] := by
  cases node with
  | text data => rfl
  | void tag attrs => rfl
  | element tag attrs children =>
      cases hhides : hides tag with
      | true => rw [HtmlNode.links, if_pos hhides]
      | false =>
          simp only [HtmlNode.orderly, hhides, Bool.or_false, Bool.true_and, Bool.false_or,
            Bool.true_or, Bool.and_eq_true, Bool.not_eq_true', Bool.or_eq_false_iff] at h
          rw [HtmlNode.links, if_neg (by simp [hhides]), if_neg (by simp [h.1.1])]
          exact pageLinks_in_link children h.2

theorem pageLinks_in_link (nodes : List HtmlNode) {inTitle : Bool}
    (h : pageOrderly false true inTitle nodes) : pageLinks resolve nodes = some [] := by
  cases nodes with
  | nil => rfl
  | cons node nodes =>
      simp only [pageOrderly, Bool.and_eq_true] at h
      rw [pageLinks, node.links_in_link h.1, Option.bind_some, pageLinks_in_link nodes h.2]
      rfl

end

theorem shownText_snd (inTitle inTitle' : Bool) (data : List Char) :
    (shownText inTitle data).map (·.2) = (shownText inTitle' data).map (·.2) := by
  rw [shownText, shownText]
  split <;> rfl

mutual

theorem HtmlNode.texts_snd (node : HtmlNode) (inTitle inTitle' : Bool) :
    (node.texts inTitle).map (·.2) = (node.texts inTitle').map (·.2) := by
  cases node with
  | text data => exact shownText_snd inTitle inTitle' data
  | void tag attrs => rfl
  | element tag attrs children =>
      rw [HtmlNode.texts, HtmlNode.texts]
      split
      · rfl
      · exact pageTexts_snd children _ _

theorem pageTexts_snd (nodes : List HtmlNode) (inTitle inTitle' : Bool) :
    (pageTexts inTitle nodes).map (·.2) = (pageTexts inTitle' nodes).map (·.2) := by
  cases nodes with
  | nil => rfl
  | cons node nodes =>
      rw [pageTexts, pageTexts, List.map_append, List.map_append,
        node.texts_snd inTitle inTitle', pageTexts_snd nodes inTitle inTitle']

end

/-- Between links, a reader outside the hidden elements has no text of a link. -/
structure ReadableHtml.Reading (state : ReadableHtml) (inLink : Bool) : Prop where
  shown : state.hiddenDepth = 0
  link : state.currentLink.isSome → inLink
  between : state.currentLink = none → state.currentLinkText = []

theorem ReadableHtml.Reading.read {inLink : Bool} (h : state.Reading inLink)
    (texts : List ShownText) (links : List (List Char × Option (List Char))) :
    (state.read texts links).Reading inLink where
  shown := h.shown
  link := h.link
  between hnone := by
    have hnone' : state.currentLink = none := hnone
    simp [ReadableHtml.read, hnone', h.between hnone']

theorem named_title_of_anchor {tag : List Char} (h : named "a" tag) :
    named "title" tag = false := by
  simp only [named, decide_eq_true_eq] at h
  simp [named, h]

/-- The end of an anchor after its content. -/
theorem close_read (hnone : state.currentLink = none) (htext : state.currentLinkText = [])
    (link : Option (List Char)) (texts : List ShownText) :
    ((state.openLink link).read texts []).closeLink = state.read texts
      (link.toList.map fun url => (url, joinedText (texts.map (·.2)))) := by
  cases link <;>
    simp [ReadableHtml.openLink, ReadableHtml.read, ReadableHtml.closeLink, hnone, htext]

theorem ReadableHtml.Reading.openLink {inLink : Bool} (h : state.Reading inLink)
    (link : Option (List Char)) : (state.openLink link).Reading true where
  shown := by cases link <;> exact h.shown
  link _ := rfl
  between := by
    cases link with
    | none => exact h.between
    | some url => simp [ReadableHtml.openLink]

/-- An anchor is read when its content is. -/
theorem feed_anchor {tag : List Char} {attrs : HtmlAttrs} (hdepth : state.hiddenDepth = 0)
    (hhides : hides tag = false) (hanchor : named "a" tag) (hnone : state.currentLink = none)
    (htext : state.currentLinkText = []) {texts : List ShownText}
    (hcontent : ∀ link, (state.openLink link).feed resolve events =
      some ((state.openLink link).read texts [])) :
    state.feed resolve (.start tag attrs :: (events ++ [.stop tag])) =
      (anchorLink resolve attrs).map fun link =>
        state.read texts (link.toList.map fun url => (url, joinedText (texts.map (·.2)))) := by
  have htitle := named_title_of_anchor hanchor
  rw [feed_cons, handle_start hdepth hhides, if_pos hanchor]
  cases anchorLink resolve attrs with
  | none => rfl
  | some link =>
      have hread : ((state.openLink link).read texts []).hiddenDepth = 0 := by
        cases link <;> exact hdepth
      simp only [htitle, Bool.or_false, Option.map_some, Option.bind_some]
      rw [feed_append, hcontent, Option.bind_some, feed_cons, handle_stop hread hhides,
        if_pos hanchor]
      simp only [htitle, Bool.not_false, Bool.and_true, Option.bind_some, feed_nil]
      rw [close_read hnone htext]

/-- Another element is read as its content, in the title or not. -/
theorem feed_element {tag : List Char} {attrs : HtmlAttrs} (hdepth : state.hiddenDepth = 0)
    (hhides : hides tag = false) (hanchor : named "a" tag = false)
    (htitles : (state.inTitle && named "title" tag) = false) {texts : List ShownText}
    {links : Option (List (List Char × Option (List Char)))}
    (hcontent : ReadableHtml.feed resolve
        { state with inTitle := state.inTitle || named "title" tag } events =
      links.map (ReadableHtml.read { state with inTitle := state.inTitle || named "title" tag }
        texts)) :
    state.feed resolve (.start tag attrs :: (events ++ [.stop tag])) =
      links.map (state.read texts) := by
  have hrestored : ((state.inTitle || named "title" tag) && !named "title" tag) =
      state.inTitle := by
    cases hin : state.inTitle <;> simp_all
  rw [feed_cons, handle_start hdepth hhides, if_neg (by simp [hanchor]), Option.bind_some,
    feed_append, hcontent]
  cases links with
  | none => rfl
  | some links =>
      have hread : (ReadableHtml.read { state with
          inTitle := state.inTitle || named "title" tag } texts links).hiddenDepth = 0 := hdepth
      rw [Option.map_some, Option.bind_some, feed_cons, handle_stop hread hhides,
        if_neg (by simp [hanchor])]
      simp [ReadableHtml.read, hrestored]

mutual

theorem HtmlNode.feed_events (node : HtmlNode) {state : ReadableHtml} {inLink : Bool}
    (hreading : state.Reading inLink) (h : node.orderly false inLink state.inTitle) :
    state.feed resolve node.events =
      (node.links resolve).map (state.read (node.texts state.inTitle)) := by
  cases node with
  | text data =>
      rw [HtmlNode.events, feed_cons, handle_data hreading.shown]
      rfl
  | void tag attrs =>
      simp only [HtmlNode.orderly, Bool.false_or, Bool.and_eq_true, Bool.not_eq_true',
        Bool.or_eq_false_iff] at h
      rw [HtmlNode.events, feed_cons, handle_start hreading.shown h.1, if_neg (by simp [h.2.1])]
      simp [HtmlNode.links, HtmlNode.texts, h.2.2]
  | element tag attrs children =>
      cases hhides : hides tag with
      | true =>
          have hdeeper : { state with hiddenDepth := state.hiddenDepth + 1 }.hiddenDepth ≠ 0 :=
            Nat.succ_ne_zero _
          simp only [HtmlNode.orderly, hhides, Bool.false_or, Bool.true_or, Bool.true_and] at h
          rw [HtmlNode.events, feed_cons, ReadableHtml.handle, ReadableHtml.handleStarttag,
            if_pos hhides, Option.bind_some, feed_append, pageFeed_hidden children hdeeper h]
          simp [feed_cons, ReadableHtml.handle, ReadableHtml.handleEndtag, hhides,
            HtmlNode.links, HtmlNode.texts]
      | false =>
          simp only [HtmlNode.orderly, hhides, Bool.false_or, Bool.and_eq_true,
            Bool.not_eq_true', Bool.or_eq_false_iff] at h
          obtain ⟨⟨hnested, htitles⟩, hchildren⟩ := h
          cases hanchor : named "a" tag with
          | true =>
              rw [hanchor, Bool.and_true] at hnested
              rw [hanchor, named_title_of_anchor hanchor, Bool.or_true, Bool.or_false] at hchildren
              have hnone : state.currentLink = none := by
                cases hlink : state.currentLink with
                | none => rfl
                | some link =>
                    have hopen := hreading.link (by rw [hlink]; rfl)
                    rw [hnested] at hopen
                    cases hopen
              have hcontent : ∀ link, (state.openLink link).feed resolve (pageEvents children) =
                  some ((state.openLink link).read (pageTexts state.inTitle children) []) := by
                intro link
                have hinTitle : (state.openLink link).inTitle = state.inTitle := by
                  cases link <;> rfl
                rw [pageFeed_events children (hreading.openLink link) (hinTitle.symm ▸ hchildren),
                  pageLinks_in_link children hchildren, hinTitle, Option.map_some]
              rw [HtmlNode.events, feed_anchor hreading.shown hhides hanchor hnone
                (hreading.between hnone) hcontent]
              simp only [HtmlNode.links, HtmlNode.texts, hhides, hanchor, Bool.false_eq_true,
                if_false, if_true, Option.map_map, named_title_of_anchor hanchor, Bool.or_false,
                pageTexts_snd children state.inTitle false]
              rfl
          | false =>
              rw [hanchor, Bool.or_false] at hchildren
              have hopened : ReadableHtml.Reading
                  { state with inTitle := state.inTitle || named "title" tag } inLink :=
                ⟨hreading.shown, hreading.link, hreading.between⟩
              rw [HtmlNode.events, feed_element hreading.shown hhides hanchor htitles
                (pageFeed_events children hopened hchildren)]
              simp [HtmlNode.links, HtmlNode.texts, hhides, hanchor]

/-- A reader outside the hidden elements reads the texts and the links of an orderly page. -/
theorem pageFeed_events (nodes : List HtmlNode) {state : ReadableHtml} {inLink : Bool}
    (hreading : state.Reading inLink) (h : pageOrderly false inLink state.inTitle nodes) :
    state.feed resolve (pageEvents nodes) =
      (pageLinks resolve nodes).map (state.read (pageTexts state.inTitle nodes)) := by
  cases nodes with
  | nil => simp [pageEvents, pageLinks, pageTexts]
  | cons node nodes =>
      simp only [pageOrderly, Bool.and_eq_true] at h
      rw [pageEvents, feed_append, node.feed_events hreading h.1, pageLinks, pageTexts]
      cases node.links resolve with
      | none => rfl
      | some links =>
          have hnext := hreading.read (node.texts state.inTitle) links
          rw [Option.map_some, Option.bind_some, Option.bind_some,
            pageFeed_events nodes hnext h.2, Option.map_map]
          congr 1
          funext more
          exact read_read

end

/-! ## The page that is read -/

/-- What the backend makes a page of: the title and the text blocks of the result. -/
structure WebPage where
  title : Option (List Char)
  text : Option (List Char)
  links : List (List Char × Option (List Char))
  deriving DecidableEq

/-- What `execute` raises: its own error for an exception of the parser, and the `ValidationError`
of a link. -/
inductive WebError
  | parsing
  | invalidUrl
  deriving DecidableEq

/-- `AnyUrl`: the URL as it is written back, `none` when it raises. -/
abbrev UrlReader := List Char → Option (List Char)

/-- The links of the blocks; the first one that is no URL ends `execute`. -/
def linkBlocks (anyUrl : UrlReader) (links : List (List Char × Option (List Char))) :
    Except WebError (List (List Char × Option (List Char))) :=
  links.mapM fun (link, text) =>
    match anyUrl link with
    | none => .error .invalidUrl
    | some url => .ok (url, text)

/-- The metadata and the blocks of `execute`. -/
def ReadableHtml.page (anyUrl : UrlReader) (state : ReadableHtml) : Except WebError WebPage := do
  let links ← linkBlocks anyUrl state.links
  .ok
    { title := joinedText state.titleParts
      text :=
        let text := ['\n'].intercalate state.textParts
        if text = [] then none else some text
      links := links }

/-- `execute` of a page, by the calls `HTMLParser` makes. -/
def parsePage (resolve : LinkResolver) (anyUrl : UrlReader) (events : List HtmlEvent) :
    Except WebError WebPage :=
  match ReadableHtml.feed resolve {} events with
  | none => .error .parsing
  | some state => state.page anyUrl

/-- The text of the parts of a page outside its titles, a line for each. -/
def shownLines (texts : List ShownText) : Option (List Char) :=
  let text := ['\n'].intercalate ((texts.filter (!·.1)).map (·.2))
  if text = [] then none else some text

def shownTitle (texts : List ShownText) : Option (List Char) :=
  joinedText ((texts.filter (·.1)).map (·.2))

/-- The page with its hidden elements is the page without them. -/
theorem hidden_content_ignored (resolve : LinkResolver) (anyUrl : UrlReader)
    (events : List HtmlEvent) :
    parsePage resolve anyUrl events = parsePage resolve anyUrl (visibleEvents 0 events) := by
  have h := hidden_not_read resolve {} events
  have hpage : ∀ state : ReadableHtml, state.outside.page anyUrl = state.page anyUrl :=
    fun _ => rfl
  rw [show (ReadableHtml.outside {}) = {} from rfl] at h
  rw [parsePage, parsePage, ← h]
  cases ReadableHtml.feed resolve {} events with
  | none => rfl
  | some state => exact (hpage state).symm

/-- The backend reads of an orderly page its titles, its text outside them and its links with
their text, in document order and without the hidden elements; it raises when one of these links
cannot be resolved or is no URL. -/
theorem orderly_page_read (resolve : LinkResolver) (anyUrl : UrlReader) {page : List HtmlNode}
    (h : pageOrderly false false false page) :
    parsePage resolve anyUrl (pageEvents page) =
      match pageLinks resolve page with
      | none => .error .parsing
      | some links => (linkBlocks anyUrl links).map fun links =>
          { title := shownTitle (pageTexts false page)
            text := shownLines (pageTexts false page)
            links := links } := by
  have hstart : ReadableHtml.Reading {} false := ⟨rfl, by simp, fun _ => rfl⟩
  rw [parsePage, pageFeed_events page hstart h]
  cases pageLinks resolve page with
  | none => rfl
  | some links => rfl

def samplePage : List HtmlNode :=
  [.element "title".toList [] [.text "A \n page".toList],
   .element "style".toList [] [.text "p { }".toList],
   .element "p".toList [] [.text " see".toList, .void "br".toList [],
     .element "a".toList [("href".toList, some "http://h/x".toList)]
       [.text "this ".toList, .element "b".toList [] [.text "one".toList]]]]

/-- A link without a host is kept by the parser, and is no URL. -/
def hostlessPage : List HtmlNode :=
  [.element "a".toList [("href".toList, some "http://".toList)] [.text "nowhere".toList]]

def sampleUrl : UrlReader := fun link => if link = "http://".toList then none else some link

theorem orderly_page_read_sample :
    parsePage (fun href => some (href, "http".toList)) sampleUrl (pageEvents samplePage) = .ok {
      title := some "A page".toList
      text := some "see\nthis\none".toList
      links := [("http://h/x".toList, some "this one".toList)] } ∧
    parsePage (fun href => some (href, "http".toList)) sampleUrl (pageEvents hostlessPage) =
      .error .invalidUrl :=
  ⟨(orderly_page_read _ _ (by decide)).trans (by decide),
    (orderly_page_read _ _ (by decide)).trans (by decide)⟩

end ParserServe
