/-
# The layout of the report for people

The report is laid out in lines, while what it shows is free text: notes, addresses, paths
and rules.  Two things keep the layout from being imitated.  A body is cut at every line
boundary, the line feed among them, and each of its lines is moved behind two blanks.  All
else that is shown stands in a style, so it begins with the character that selects one,
and has no line feed in it: a place because a file and a number stand on one line, the
summary because no reviewer's name has one.

So the lines at the margin are the heading, the places and the summary, and what stands
below a place is the body of its comment.
-/

import DirectiveReview.Proofs.Report.Printed
import DirectiveReview.Proofs.Report.Writable
import DirectiveReview.Proofs.Review.Bodies

namespace DirectiveReview

open Text

namespace Report

/-- A line that stands behind two blanks. -/
def isIndented (line : Text) : Bool :=
  [' ', ' '].isPrefixOf line

/-- Lines moved behind two blanks. -/
def indented (ls : List Text) : List Text :=
  ls.map fun line => ' ' :: ' ' :: line

/-- The lines in front of the first line at the margin, then each line at the margin with
the lines below it. -/
def cutAtMargin : List Text → List Text × List (Text × List Text)
  | [] => ([], [])
  | line :: rest =>
    let (front, blocks) := cutAtMargin rest
    if isIndented line then (line :: front, blocks) else ([], (line, front) :: blocks)

/-- The place of a violation, as its comment shows it. -/
def placeOf (violation : Violation) : Text :=
  violation.file ++ ":".toList ++ integer violation.line

/-! ## Lines at the margin -/

theorem fst_cutAtMargin (ls : List Text) :
    (cutAtMargin ls).2.map Prod.fst = ls.filter (!isIndented ·) := by
  induction ls with
  | nil => rfl
  | cons line rest ih =>
      rw [cutAtMargin]
      cases inside : isIndented line <;> simp [inside, ih]

theorem cutAtMargin_indented (ls rest : List Text) :
    cutAtMargin (indented ls ++ rest) =
      (indented ls ++ (cutAtMargin rest).1, (cutAtMargin rest).2) := by
  induction ls with
  | nil => rfl
  | cons line more ih =>
      show cutAtMargin ((' ' :: ' ' :: line) :: (indented more ++ rest)) = _
      rw [cutAtMargin, ih]
      rfl

/-- Blocks that are laid out one below the other are found again. -/
theorem cutAtMargin_blocks {blocks : List (Text × List Text)}
    (margin : ∀ block ∈ blocks, isIndented block.1 = false) :
    cutAtMargin (blocks.flatMap fun block => block.1 :: indented block.2) =
      ([], blocks.map fun block => (block.1, indented block.2)) := by
  induction blocks with
  | nil => rfl
  | cons block rest ih =>
      obtain ⟨here, later⟩ := List.forall_mem_cons.mp margin
      rw [List.flatMap_cons, List.cons_append, cutAtMargin, cutAtMargin_indented, ih later]
      simp [here]

theorem isIndented_bold (text : Text) : isIndented (Terminal.bold text) = false := rfl

theorem isIndented_heading (violations : Nat) : isIndented (heading violations) = false := rfl

/-! ## Lines without a feed -/

theorem noFeed_bold {text : Text} (bare : '\n' ∉ text) : '\n' ∉ Terminal.bold text := by
  have front : '\n' ∉ Terminal.select "1" := by decide
  have back : '\n' ∉ Terminal.select "0" := by decide
  simp only [Terminal.bold, List.mem_append, not_or]
  exact ⟨⟨front, bare⟩, back⟩

theorem noFeed_of_asciiLine {text : Text} (ascii : AsciiLine text) : '\n' ∉ text :=
  ascii.not_mem (by decide)

theorem noFeed_heading (violations : Nat) : '\n' ∉ heading violations := by
  have words : AsciiLine ("Found ".toList ++ natural violations ++
      " `rubocop:disable` directive(s).".toList) :=
    (AsciiLine.append (by decide) (asciiLine_natural violations)).append (by decide)
  rw [heading, Terminal.boldYellow, List.mem_append, not_or]
  exact ⟨by decide, noFeed_bold (noFeed_of_asciiLine words)⟩

theorem noFeed_placeOf {violation : Violation} (file : OneLine violation.file) :
    '\n' ∉ placeOf violation := by
  simp only [placeOf, List.mem_append, not_or]
  exact ⟨⟨file.noFeed, by decide⟩, noFeed_of_asciiLine (asciiLine_integer _)⟩

theorem noFeed_summaryBody {reviewers : List Text} (bare : ∀ reviewer ∈ reviewers, '\n' ∉ reviewer) :
    '\n' ∉ Comment.summaryBody reviewers := by
  have sentence :
      '\n' ∉ "Detected use of ".toList ++ Comment.directiveLabel ++ " directive.".toList := by
    decide
  have mention : ∀ name ∈ reviewers.map fun reviewer => '@' :: reviewer, ∀ c ∈ name, c ≠ '\n' := by
    refine List.forall_mem_map.mpr fun reviewer inside => List.forall_mem_cons.mpr ⟨by decide, ?_⟩
    exact fun c among same => bare reviewer inside (same ▸ among)
  have comma : ∀ c ∈ ", ".toList, c ≠ '\n' := by
    rintro c inside rfl
    exact absurd inside (by decide)
  have mentions := forall_mem_join comma mention
  rw [Comment.summaryBody]
  split
  · exact sentence
  · simp only [List.mem_append, not_or] at sentence ⊢
    exact ⟨⟨sentence, by decide⟩, fun inside => mentions _ inside rfl⟩

/-! ## The report -/

/-- The blocks of a report: the heading, the inline comments, each with its body below its
place, and the summary. -/
def blocks (settings : ReviewSettings) (review : Review) : List (Text × List Text) :=
  (heading review.violations.length, []) ::
    review.inline.map (fun comment => (Terminal.bold (place comment), bodyLines comment)) ++
    [(Terminal.bold (Comment.summaryBody settings.tagReviewers), [])]

variable {settings : ReviewSettings} {review : Review}

theorem humanPieces_eq_blocks (summary : review.summary? = some settings.summary) :
    humanPieces review =
      (blocks settings review).flatMap fun block => block.1 :: indented block.2 := by
  have inline : review.inline.flatMap block =
      (review.inline.map fun comment => (Terminal.bold (place comment), bodyLines comment)).flatMap
        fun block => block.1 :: indented block.2 := by
    rw [List.flatMap_map]
    rfl
  rw [humanPieces, summary, inline, blocks, List.flatMap_append, List.flatMap_cons]
  rfl

theorem isIndented_of_mem_blocks :
    ∀ block ∈ blocks settings review, isIndented block.1 = false := by
  refine List.forall_mem_append.mpr ⟨List.forall_mem_cons.mpr ⟨isIndented_heading _, ?_⟩, ?_⟩
  · exact List.forall_mem_map.mpr fun comment _ => isIndented_bold _
  · exact List.forall_mem_singleton.mpr (isIndented_bold _)

/-- No line of a report has a feed in it if none of its places and no reviewer has. -/
theorem noFeed_humanPieces (summary : review.summary? = some settings.summary)
    (bare : ∀ reviewer ∈ settings.tagReviewers, '\n' ∉ reviewer)
    (places : ∀ comment ∈ review.inline, '\n' ∉ place comment) :
    ∀ line ∈ humanPieces review, '\n' ∉ line := by
  rw [humanPieces, summary]
  refine List.forall_mem_append.mpr ⟨List.forall_mem_cons.mpr ⟨noFeed_heading _, ?_⟩, ?_⟩
  · intro line inside
    obtain ⟨comment, member, among⟩ := List.mem_flatMap.mp inside
    rcases List.mem_cons.mp among with rfl | below
    · exact noFeed_bold (places comment member)
    · obtain ⟨bodyLine, cut, rfl⟩ := List.mem_map.mp below
      have one : OneLine (' ' :: ' ' :: bodyLine) := by
        simpa using ⟨by decide, oneLine_of_mem_lines cut⟩
      exact one.noFeed
  · exact List.forall_mem_singleton.mpr (noFeed_bold (noFeed_summaryBody bare))

theorem human?_eq_some (found : review.violations ≠ []) (writable : LinesWritable review.inline) :
    human? review = some (unlines (humanPieces review)) := by
  obtain ⟨text, written⟩ := Option.isSome_iff_exists.mp (isSome_human?_iff.mpr (Or.inr writable))
  rw [human?, if_neg found] at written ⊢
  split at written
  · next all => exact if_pos all
  · cases written

theorem map_place_inline_shown (violations : List Violation) (display : Text → Text) :
    (Review.shown settings violations display).inline.map place = violations.map placeOf := by
  rw [Review.inline_shown, List.map_map]
  rfl

/-- **What a report shows cannot imitate its layout.**  If no reviewer's name has a line feed
in it, then a report on violations whose numbers can be written has these lines at the
margin, whatever the note, the rules and their addresses are: the heading with the number of
violations, the place of each violation in order, and the summary behind them.  Between the
place of a violation and the next line at the margin stand the lines of the body of its
comment, each behind two blanks, and nothing stands below the heading or the summary. -/
theorem human_keeps_layout (r : Resolver) (settings : ReviewSettings) (earlier : List Demand)
    (diff : Text) (review : Review) (after : Memory)
    (bare : ∀ reviewer ∈ settings.tagReviewers, '\n' ∉ reviewer)
    (reviewed : Review.ofDiff r settings (r.serveAll Memory.empty earlier).2 diff =
      .ok (review, after))
    (found : review.violations ≠ []) (writable : Violation.Writable review.violations) :
    ∃ text, human? review = some text ∧
      (pieces '\n' text).filter (!isIndented ·) =
        heading review.violations.length ::
          review.violations.map (fun violation => Terminal.bold (placeOf violation)) ++
          [Terminal.bold (Comment.summaryBody settings.tagReviewers)] ∧
      review.inline.length = review.violations.length ∧
      cutAtMargin (pieces '\n' text) = ([],
        (heading review.violations.length, []) ::
          review.violations.zipWith (fun violation comment =>
            (Terminal.bold (placeOf violation),
              indented (dropTrailing (· == '\n') comment.body).lines)) review.inline ++
          [(Terminal.bold (Comment.summaryBody settings.tagReviewers), [])]) := by
  obtain ⟨files, cut, search, -⟩ := Review.ofDiff_eq_ok_iff.mp reviewed
  have named := Violation.namesOneLine_of_mem_find cut search
  have shown := Review.eq_shown_of_ofDiff reviewed
  have summary : review.summary? = some settings.summary := by
    rw [shown]
    exact Review.summary?_shown found _
  have places : review.inline.map place = review.violations.map placeOf := by
    conv_lhs => rw [shown]
    exact map_place_inline_shown _ _
  have writableInline : LinesWritable review.inline := by
    rw [shown]
    exact Review.linesWritable_inline_shown_iff.mpr writable
  have noFeed : ∀ comment ∈ review.inline, '\n' ∉ place comment := by
    intro comment inside
    have among := List.mem_map_of_mem (f := place) inside
    rw [places] at among
    obtain ⟨violation, member, same⟩ := List.mem_map.mp among
    exact same ▸ noFeed_placeOf (named violation member).file
  have cutLines : pieces '\n' (unlines (humanPieces review)) = humanPieces review :=
    pieces_join (noFeed_humanPieces summary bare noFeed) (List.cons_ne_nil _ _)
  have blocked : cutAtMargin (humanPieces review) =
      ([], (blocks settings review).map fun block => (block.1, indented block.2)) := by
    rw [humanPieces_eq_blocks summary, cutAtMargin_blocks isIndented_of_mem_blocks]
  refine ⟨_, human?_eq_some found writableInline, ?margin, ?length, ?below⟩
  case margin =>
    have styled : review.inline.map (fun comment => Terminal.bold (place comment)) =
        review.violations.map fun violation => Terminal.bold (placeOf violation) := by
      simpa only [List.map_map, Function.comp_def] using congrArg (List.map Terminal.bold) places
    rw [cutLines, ← fst_cutAtMargin, blocked, ← styled]
    simp [blocks, Function.comp_def]
  case length => simpa using congrArg List.length places
  case below =>
    have paired : review.violations.zipWith (fun violation comment =>
          (Terminal.bold (placeOf violation), indented (bodyLines comment))) review.inline =
        review.inline.map fun comment =>
          (Terminal.bold (place comment), indented (bodyLines comment)) := by
      let pair (shownPlace : Text) (comment : Comment) :=
        (Terminal.bold shownPlace, indented (bodyLines comment))
      calc
        _ = (review.violations.map placeOf).zipWith pair review.inline :=
            List.zipWith_map_left.symm
        _ = (review.inline.map place).zipWith pair review.inline := by rw [places]
        _ = review.inline.map fun comment => pair (place comment) comment := by
            rw [List.zipWith_map_left, List.zipWith_self]
    rw [cutLines, blocked, blocks, List.map_append, List.map_cons, List.map_map]
    exact congrArg (fun middle => ([], (heading review.violations.length, []) :: middle ++
      [(Terminal.bold (Comment.summaryBody settings.tagReviewers), [])])) paired.symm

/-- A note that imitates a report, with boundaries of several kinds, an empty line and a
style that ends early. -/
def imitatingReport : ReviewSettings :=
  ⟨[], "m\x1b[0m\u2028Found 2\x0b\r\n\nx.rb:1\n\n".toList, [['k'], ['l']]⟩

theorem human_keeps_layout_imitating :
    let r : Resolver := ⟨Lookup.ofAnswers fun _ => .found "u\nv".toList, 4, Schedule.inOrder,
      by decide⟩
    (∀ reviewer ∈ imitatingReport.tagReviewers, '\n' ∉ reviewer) ∧
    ∃ review after, Review.ofDiff r imitatingReport (r.serveAll Memory.empty []).2
        Review.imitatingRules = .ok (review, after) ∧
      review.violations ≠ [] ∧ Violation.Writable review.violations ∧
      ∃ text, human? review = some text ∧
        (pieces '\n' text).filter (!isIndented ·) =
          [heading 3, Terminal.bold "x.rb:1".toList, Terminal.bold "x.rb:2".toList,
            Terminal.bold "x.rb:3".toList, Terminal.bold
              "Detected use of `rubocop:disable` directive. cc @k, @l".toList] ∧
        (cutAtMargin (pieces '\n' text)).2[1]? = some (Terminal.bold "x.rb:1".toList,
          indented ["Detected `rubocop:disable`".toList, [], [], "> **Note**".toList,
            "> m\x1b[0m".toList, "Found 2".toList, [], [], "x.rb:1".toList]) := by
  intro r
  have bare : ∀ reviewer ∈ imitatingReport.tagReviewers, '\n' ∉ reviewer := by decide
  have search : Violation.ofDiff imitatingReport Review.imitatingRules =
      .ok [⟨"x.rb".toList, 1, []⟩, ⟨"x.rb".toList, 2, ["the following cops:".toList]⟩,
        ⟨"x.rb".toList, 3, ["- A".toList, "B".toList]⟩] := by
    decide +kernel
  obtain ⟨review, after, reviewed, violations⟩ :=
    Review.exists_ofDiff_of_found search r (r.serveAll Memory.empty []).2
  have found : review.violations ≠ [] := by
    rw [violations]
    exact List.cons_ne_nil _ _
  have writable : Violation.Writable review.violations := by
    rw [violations]
    unfold Violation.Writable
    decide +kernel
  obtain ⟨text, written, margin, length, below⟩ := human_keeps_layout r imitatingReport []
    Review.imitatingRules review after bare reviewed found writable
  refine ⟨bare, review, after, reviewed, found, writable, text, written, ?_, ?_⟩
  · rw [margin, violations]
    rfl
  · have shown := Review.eq_shown_of_ofDiff reviewed
    have inline : review.inline = _ := (congrArg Review.inline shown).trans
      (Review.inline_shown imitatingReport review.violations (r.displayIn after.calls))
    rw [below, inline, violations]
    rfl

end Report

end DirectiveReview
