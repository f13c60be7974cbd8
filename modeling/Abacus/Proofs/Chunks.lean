import Abacus.Proofs.Lines
import Abacus.Proofs.Printed
import Mathlib.Data.List.Induction
import Mathlib.Data.List.TakeWhile

/-!
# Chunks of lines

The interactive loop runs its input chunk by chunk. The lines of an input have one division: chunks that
only their last line completes, a tail that no line completes, and what is left unread after a line that
says `exit` where a chunk would start. The loop asks for each line, runs each chunk that is not blank by
itself, and ends with a newline; the tail and what is unread are not run.
-/

namespace Abacus

namespace Text

def Blank (text : List Char) : Prop := ∀ c ∈ text, isBlank c

instance : DecidablePred Blank := fun text => List.decidableBAll (isBlank ·) text

theorem exists_trim (text : List Char) : ∃ before after,
    text = before ++ trim text ++ after ∧ Blank before ∧ Blank after := by
  have hfront := List.takeWhile_append_dropWhile (p := isBlank) (l := text)
  have hback := List.takeWhile_append_dropWhile (p := isBlank) (l := (text.dropWhile isBlank).reverse)
  refine ⟨text.takeWhile isBlank, ((text.dropWhile isBlank).reverse.takeWhile isBlank).reverse, ?_,
    fun c hc => List.mem_takeWhile_imp hc,
    fun c hc => List.mem_takeWhile_imp (List.mem_reverse.mp hc)⟩
  rw [trim, List.append_assoc, ← List.reverse_append, hback, List.reverse_reverse, hfront]

theorem dropWhile_append {before text : List Char} (hbefore : Blank before)
    (hfirst : ∀ c ∈ text.head?, ¬ isBlank c) : (before ++ text).dropWhile isBlank = text := by
  rw [List.dropWhile_append_of_pos hbefore]
  cases text with
  | nil => rfl
  | cons c cs => exact List.dropWhile_cons_of_neg (hfirst c rfl)

theorem trim_append {before after text : List Char} (hbefore : Blank before) (hafter : Blank after)
    (hne : text ≠ []) (hfirst : ∀ c ∈ text.head?, ¬ isBlank c)
    (hlast : ∀ c ∈ text.getLast?, ¬ isBlank c) : trim (before ++ text ++ after) = text := by
  have hhead : (text ++ after).head? = text.head? := List.head?_append_of_ne_nil _ hne
  have hfront : (before ++ (text ++ after)).dropWhile isBlank = text ++ after :=
    dropWhile_append hbefore (hhead ▸ hfirst)
  have hback : (after.reverse ++ text.reverse).dropWhile isBlank = text.reverse :=
    dropWhile_append (fun c hc => hafter c (List.mem_reverse.mp hc)) (by simpa using hlast)
  rw [trim, List.append_assoc, hfront, List.reverse_append, hback, List.reverse_reverse]

theorem trim_eq_nil {text : List Char} : trim text = [] ↔ Blank text := by
  constructor
  · intro h
    obtain ⟨before, after, htext, hbefore, hafter⟩ := exists_trim text
    rw [h, List.append_nil] at htext
    rw [htext]
    exact List.forall_mem_append.mpr ⟨hbefore, hafter⟩
  · intro h
    simp [trim, List.dropWhile_eq_nil_iff.mpr h]

theorem getLast?_trim {text : List Char} {c : Char} (hc : ¬ isBlank c) :
    (trim text).getLast? = some c ↔ ∃ before after, text = before ++ c :: after ∧ Blank after := by
  constructor
  · intro h
    obtain ⟨before, after, htext, -, hafter⟩ := exists_trim text
    obtain ⟨start, hstart⟩ := List.getLast?_eq_some_iff.mp h
    exact ⟨before ++ start, after, by rw [htext, hstart]; simp, hafter⟩
  · rintro ⟨before, after, rfl, hafter⟩
    have hsplit : before ++ c :: after =
        before.takeWhile isBlank ++ (before.dropWhile isBlank ++ [c]) ++ after := by
      rw [← List.append_assoc, List.takeWhile_append_dropWhile]
      simp
    have hfirst : ∀ d ∈ (before.dropWhile isBlank ++ [c]).head?, ¬ isBlank d := by
      have hdrop := List.head?_dropWhile_not isBlank before
      cases hx : before.dropWhile isBlank with
      | nil => simpa using hc
      | cons d ds =>
        rw [hx] at hdrop
        simpa using hdrop
    rw [hsplit, trim_append (fun d hd => List.mem_takeWhile_imp hd) hafter (by simp) hfirst
      (by simpa using hc)]
    simp

end Text

namespace Repl

open Text (Blank)

/-- A line that completes a chunk is blank, or a semicolon or a closing brace is the last of its
characters that is not blank. -/
def Closes (line : String) : Prop :=
  Blank line.toList ∨ ∃ before c after, line.toList = before ++ c :: after ∧ (c = ';' ∨ c = '\x7d') ∧
    Blank after

def Exits (line : String) : Prop :=
  ∃ before after, line.toList = before ++ "exit".toList ++ after ∧ Blank before ∧ Blank after

theorem isComplete_iff {line : String} : isComplete line.toList ↔ Closes line := by
  have hends : ∀ c : Char, (c == ';' || c == '\x7d') = true ↔ c = ';' ∨ c = '\x7d' := by simp
  rw [isComplete, Closes, ← Text.trim_eq_nil]
  constructor
  · intro h
    cases hlast : (Text.trim line.toList).getLast? with
    | none => exact .inl (List.getLast?_eq_none_iff.mp hlast)
    | some c =>
      simp only [hlast] at h
      have hc := (hends c).mp h
      have hblank : ¬ Text.isBlank c := by rcases hc with rfl | rfl <;> decide
      obtain ⟨before, after, htext, hafter⟩ := (Text.getLast?_trim hblank).mp hlast
      exact .inr ⟨before, c, after, htext, hc, hafter⟩
  · rintro (h | ⟨before, c, after, htext, hc, hafter⟩)
    · rw [h]
      rfl
    · have hblank : ¬ Text.isBlank c := by rcases hc with rfl | rfl <;> decide
      rw [(Text.getLast?_trim hblank).mpr ⟨before, after, htext, hafter⟩]
      exact (hends c).mpr hc

instance : DecidablePred Closes := fun _ => decidable_of_iff _ isComplete_iff

theorem trim_eq_exit_iff {line : String} : Text.trim line.toList = "exit".toList ↔ Exits line := by
  constructor
  · intro h
    obtain ⟨before, after, htext, hbefore, hafter⟩ := Text.exists_trim line.toList
    exact ⟨before, after, h ▸ htext, hbefore, hafter⟩
  · rintro ⟨before, after, htext, hbefore, hafter⟩
    rw [htext]
    have hfirst : ∀ c ∈ "exit".toList.head?, ¬ Text.isBlank c := by
      rintro c ⟨⟩
      decide
    have hlast : ∀ c ∈ "exit".toList.getLast?, ¬ Text.isBlank c := by
      rintro c ⟨⟩
      decide
    exact Text.trim_append hbefore hafter (by decide) hfirst hlast

instance : DecidablePred Exits := fun _ => decidable_of_iff _ trim_eq_exit_iff

def Starts (lines : List String) : Prop := ∀ line ∈ lines.head?, ¬ Exits line

instance : DecidablePred Starts := fun lines =>
  inferInstanceAs (Decidable (∀ line ∈ lines.head?, ¬ Exits line))

/-- The last line of a chunk completes it, and no line before does. -/
structure IsChunk (chunk : List String) : Prop where
  starts : Starts chunk
  complete : ∃ before last, chunk = before ++ [last] ∧ (∀ line ∈ before, ¬ Closes line) ∧ Closes last

/-- Lines divided into chunks, lines that are no whole chunk, and lines that are not read because the
first of them says `exit` where a chunk would start. -/
structure Division (lines : List String) where
  chunks : List (List String)
  tail : List String
  unread : List String
  covers : lines = chunks.flatten ++ tail ++ unread
  complete : ∀ chunk ∈ chunks, IsChunk chunk
  starts : Starts tail
  incomplete : ∀ line ∈ tail, ¬ Closes line
  ended : unread = [] ∨ tail = [] ∧ ∃ line ∈ unread.head?, Exits line

def textOf (lines : List String) : String := String.join (lines.map (· ++ "\n"))

structure Ended (answer : Session.Answer) : Prop where
  ne_crashed : answer ≠ .crashed
  ne_cut : answer ≠ .cut

/-- What a text answers and prints when it is run by itself, in a session that has just been started
and whose sink takes everything. -/
def Alone (limit : Nat) (source : String) (answer : Session.Answer) (printed : String) : Prop :=
  Ended answer ∧ ∃ budget after,
    (Session.start limit .unlimited).execute budget source = (answer, after) ∧
      after.output = printed.toUTF8

def EndsWithin (budget limit : Nat) (source : String) : Prop :=
  Ended ((Session.start limit .unlimited).execute budget source).1

structure Outcome where
  printed : String
  error : Option Report

def Outcome.complaint (o : Outcome) : String :=
  match o.error with
  | some r => s!"Error: {r.text}\n"
  | none => ""

inductive Gives (limit : Nat) (source : String) : Outcome → Prop
  | blank : Blank source.toList → Gives limit source ⟨"", none⟩
  | ran {answer : Session.Answer} {printed : String} :
      ¬ Blank source.toList → Alone limit source answer printed →
      Gives limit source ⟨printed, answer.report?⟩

def prompts : Nat → String
  | 0 => ""
  | n + 1 => ">>> " ++ String.join (List.replicate n "... ")

namespace Division

variable {lines : List String}

/-- The prompts of each chunk and then what it prints, the prompts of the tail and of the attempt to
read after it, and a newline. -/
def stdout (d : Division lines) (outcomes : List Outcome) : String :=
  String.join (List.zipWith (fun chunk o => prompts chunk.length ++ o.printed) d.chunks outcomes) ++
    prompts (d.tail.length + 1) ++ "\n"

def stderr (outcomes : List Outcome) : String := String.join (outcomes.map Outcome.complaint)

end Division

theorem exists_first_closing (lines : List String) :
    (∀ line ∈ lines, ¬ Closes line) ∨
      ∃ before last rest, lines = before ++ last :: rest ∧ (∀ line ∈ before, ¬ Closes line) ∧
        Closes last := by
  cases hfind : lines.find? (fun line => isComplete line.toList) with
  | none =>
    refine .inl fun line hline hcloses => ?_
    exact List.find?_eq_none.mp hfind line hline (isComplete_iff.mpr hcloses)
  | some last =>
    obtain ⟨hlast, before, rest, rfl, hbefore⟩ := List.find?_eq_some_iff_append.mp hfind
    refine .inr ⟨before, last, rest, rfl, fun line hline hcloses => ?_, isComplete_iff.mp hlast⟩
    have := hbefore line hline
    rw [isComplete_iff.mpr hcloses] at this
    cases this

theorem exists_division (lines : List String) : Nonempty (Division lines) := by
  induction hk : lines.length using Nat.strongRecOn generalizing lines with
  | ind k ih =>
    by_cases hstarts : Starts lines
    · rcases exists_first_closing lines with hnone | ⟨before, last, rest, rfl, hbefore, hlast⟩
      · exact ⟨⟨[], lines, [], by simp, by simp, hstarts, hnone, .inl rfl⟩⟩
      · obtain ⟨d⟩ := ih rest.length (by simp [← hk]; omega) rest rfl
        have hchunk : IsChunk (before ++ [last]) := by
          refine ⟨?_, before, last, rfl, hbefore, hlast⟩
          cases before with
          | nil => exact hstarts
          | cons line before => exact hstarts
        exact ⟨⟨(before ++ [last]) :: d.chunks, d.tail, d.unread, by simp [d.covers],
          List.forall_mem_cons.mpr ⟨hchunk, d.complete⟩, d.starts, d.incomplete, d.ended⟩⟩
    · have hexits : ∃ line ∈ lines.head?, Exits line := by
        simpa [Starts] using hstarts
      exact ⟨⟨[], [], lines, by simp, by simp, by simp [Starts], by simp, .inr ⟨rfl, hexits⟩⟩⟩

section Alone

variable {limit budget : Nat} {source printed : String} {answer : Session.Answer}

theorem decodeCut_toUTF8 (text : String) : Text.decodeCut text.toUTF8 = text := by
  have hvalid : text.toUTF8.IsValidUTF8 := text.isValidUTF8
  rw [Text.decodeCut, String.fromUTF8?, dif_pos hvalid]
  rfl

theorem printedSince_start {after : Session} (h : after.output = printed.toUTF8) :
    after.printedSince (Session.start limit .unlimited) = printed := by
  have hwhole : after.output.extract 0 after.output.size = after.output := ByteArray.extract_zero_size
  have hempty : (Session.start limit .unlimited).output.size = 0 := rfl
  rw [Session.printedSince, hempty, hwhole, h, decodeCut_toUTF8]

theorem EndsWithin.exists_alone (h : EndsWithin budget limit source) :
    ∃ answer printed, Alone limit source answer printed := by
  rcases hrun : (Session.start limit .unlimited).execute budget source with ⟨answer, after⟩
  rw [EndsWithin, hrun] at h
  obtain ⟨-, printed, hprinted⟩ := Session.execute_spelled Sink.spelled_unlimited h.ne_cut hrun
  exact ⟨answer, printed, h, budget, after, hrun, hprinted⟩

theorem Ended.complaint_eq (h : Ended answer) (printed : String) :
    complaint answer = (Outcome.mk printed answer.report?).complaint := by
  cases answer with
  | crashed => exact absurd rfl h.ne_crashed
  | cut => rfl
  | value | refused | failed => rfl

theorem Alone.runText (h : Alone limit source answer printed) (hends : EndsWithin budget limit source) :
    (runText limit budget source).1 = ⟨printed, (Outcome.mk printed answer.report?).complaint⟩ := by
  obtain ⟨hended, needed, after, hrun, hprinted⟩ := h
  rcases hbudget : (Session.start limit .unlimited).execute budget source with ⟨answer', after'⟩
  rw [EndsWithin, hbudget] at hends
  have hmax := Session.execute_mono (Nat.le_max_left needed budget) hended.ne_cut hrun
  have hmax' := Session.execute_mono (Nat.le_max_right needed budget) hends.ne_cut hbudget
  obtain ⟨rfl, rfl⟩ := Prod.mk.inj (hmax.symm.trans hmax')
  simp only [Repl.runText, hbudget, printedSince_start hprinted, hended.complaint_eq printed]

end Alone

section Loop

variable {limit budget : Nat} {pending line : String} {lines : List String}
  {rest : List (Option String)}

def written (limit budget : Nat) (source : String) : Output :=
  if (Text.trim source.toList).isEmpty then ⟨"", ""⟩ else (runText limit budget source).1

theorem step_exit (h : Exits line) : step limit budget "" line = .exit := by
  have htrim := trim_eq_exit_iff.mpr h
  simp [step, htrim]

theorem reads_on (h : pending = "" → ¬ Exits line) :
    ¬ (pending.isEmpty && Text.trim line.toList == "exit".toList) = true := by
  rw [Bool.and_eq_true, String.isEmpty_iff, beq_iff_eq, trim_eq_exit_iff]
  exact fun he => h he.1 he.2

theorem step_open (h : pending = "" → ¬ Exits line) (hopen : ¬ Closes line) :
    step limit budget pending line = .pending (pending ++ line ++ "\n") := by
  have hincomplete : isComplete line.toList = false := by
    rw [← Bool.not_eq_true]
    exact mt isComplete_iff.mp hopen
  rw [step, if_neg (reads_on h)]
  simp [hincomplete]

theorem step_closing (h : pending = "" → ¬ Exits line) (hcloses : Closes line)
    (hends : ¬ Blank (pending ++ line ++ "\n").toList →
      EndsWithin budget limit (pending ++ line ++ "\n")) :
    step limit budget pending line = .ran (written limit budget (pending ++ line ++ "\n")) := by
  rw [step, if_neg (reads_on h), written]
  simp only [isComplete_iff.mpr hcloses, Bool.not_true, Bool.false_eq_true, if_false]
  split
  · rfl
  · rename_i hsome
    rw [List.isEmpty_iff, Text.trim_eq_nil] at hsome
    -- a chunk that ends does not crash, so the loop goes on
    have hcrashed : (runText limit budget (pending ++ line ++ "\n")).2 ≠ .crashed :=
      (hends hsome).ne_crashed
    split
    · rename_i hrun
      rw [hrun] at hcrashed
      exact absurd rfl hcrashed
    · rename_i hrun
      rw [hrun]

theorem textOf_concat (lines : List String) (line : String) :
    textOf (lines ++ [line]) = textOf lines ++ line ++ "\n" := by
  simp [textOf, String.append_assoc]

theorem textOf_eq_empty : textOf lines = "" ↔ lines = [] := by
  rcases List.eq_nil_or_concat lines with rfl | ⟨start, last, rfl⟩
  · simp [textOf]
  · simp [List.concat_eq_append, textOf_concat]

theorem prompts_succ (lines : List String) :
    prompts (lines.length + 1) = prompts lines.length ++ prompt (textOf lines) := by
  cases lines with
  | nil => rfl
  | cons line lines =>
    have hne : textOf (line :: lines) ≠ "" := mt textOf_eq_empty.mp (by simp)
    have hprompt : prompt (textOf (line :: lines)) = "... " :=
      if_neg (mt String.isEmpty_iff.mp hne)
    rw [hprompt, List.length_cons, prompts, prompts, List.replicate_succ']
    simp [String.append_assoc]

theorem Starts.of_append {more : List String} (h : Starts (lines ++ more)) : Starts lines := by
  cases lines with
  | nil => simp [Starts]
  | cons line lines => exact h

theorem Starts.last (h : Starts (lines ++ [line])) : textOf lines = "" → ¬ Exits line := by
  intro he
  rw [textOf_eq_empty] at he
  subst he
  exact h line rfl

theorem transcript_open (hstarts : Starts lines) (hopen : ∀ line ∈ lines, ¬ Closes line) :
    transcript limit budget "" (lines.map some ++ rest) =
      (transcript limit budget (textOf lines) rest).prepend ⟨prompts lines.length, ""⟩ := by
  induction lines using List.reverseRecOn generalizing rest with
  | nil => simp [textOf, prompts, Transcript.prepend, Output.append]
  | append_singleton lines line ih =>
    have hline : ¬ Closes line := hopen line (by simp)
    have hlines : ∀ l ∈ lines, ¬ Closes l := fun l hl => hopen l (by simp [hl])
    rw [List.map_append, List.append_assoc, List.map_singleton, List.singleton_append,
      ih hstarts.of_append hlines, transcript,
      step_open hstarts.last hline, textOf_concat, List.length_append, List.length_singleton,
      prompts_succ]
    simp [Transcript.prepend, Output.append, String.append_assoc]

theorem Gives.written {source : String} {o : Outcome} (h : Gives limit source o)
    (hends : ¬ Blank source.toList → EndsWithin budget limit source) :
    written limit budget source = ⟨o.printed, o.complaint⟩ := by
  cases h with
  | blank hblank =>
    rw [Repl.written, Text.trim_eq_nil.mpr hblank]
    rfl
  | ran hsome halone =>
    have htrim : ¬ (Text.trim source.toList).isEmpty = true := by
      rwa [List.isEmpty_iff, Text.trim_eq_nil]
    rw [Repl.written, if_neg htrim, halone.runText (hends hsome)]

theorem exists_gives {source : String}
    (hends : ¬ Blank source.toList → EndsWithin budget limit source) : ∃ o, Gives limit source o := by
  by_cases hblank : Blank source.toList
  · exact ⟨_, .blank hblank⟩
  · obtain ⟨answer, printed, halone⟩ := (hends hblank).exists_alone
    exact ⟨_, .ran hblank halone⟩

theorem exists_outcomes {chunks : List (List String)}
    (hends : ∀ chunk ∈ chunks, ¬ Blank (textOf chunk).toList → EndsWithin budget limit (textOf chunk)) :
    ∃ outcomes, List.Forall₂ (fun chunk => Gives limit (textOf chunk)) chunks outcomes := by
  induction chunks with
  | nil => exact ⟨[], .nil⟩
  | cons chunk chunks ih =>
    obtain ⟨hend, hothers⟩ := List.forall_mem_cons.mp hends
    obtain ⟨o, ho⟩ := exists_gives hend
    obtain ⟨outcomes, hgives⟩ := ih hothers
    exact ⟨o :: outcomes, .cons ho hgives⟩

theorem transcript_chunk {chunk : List String} {o : Outcome} (h : IsChunk chunk)
    (hgives : Gives limit (textOf chunk) o)
    (hends : ¬ Blank (textOf chunk).toList → EndsWithin budget limit (textOf chunk)) :
    transcript limit budget "" (chunk.map some ++ rest) =
      (transcript limit budget "" rest).prepend ⟨prompts chunk.length ++ o.printed, o.complaint⟩ := by
  obtain ⟨hstarts, lines, last, rfl, hopen, hcloses⟩ := h
  have hwritten := hgives.written hends
  rw [textOf_concat] at hwritten hends
  rw [List.map_append, List.append_assoc, transcript_open hstarts.of_append hopen, List.map_singleton,
    List.singleton_append, transcript, step_closing hstarts.last hcloses hends, hwritten, List.length_append,
    List.length_singleton, prompts_succ]
  simp [Transcript.prepend, Output.append, String.append_assoc]

theorem transcript_chunks {chunks : List (List String)} {outcomes : List Outcome}
    (hchunks : ∀ chunk ∈ chunks, IsChunk chunk)
    (hgives : List.Forall₂ (fun chunk => Gives limit (textOf chunk)) chunks outcomes)
    (hends : ∀ chunk ∈ chunks, ¬ Blank (textOf chunk).toList → EndsWithin budget limit (textOf chunk)) :
    transcript limit budget "" (chunks.flatten.map some ++ rest) =
      (transcript limit budget "" rest).prepend
        ⟨String.join (List.zipWith (fun chunk o => prompts chunk.length ++ o.printed) chunks outcomes),
          Division.stderr outcomes⟩ := by
  induction hgives with
  | nil => simp [Transcript.prepend, Output.append, Division.stderr]
  | @cons chunk o chunks outcomes hgives _ ih =>
    obtain ⟨hchunk, hmore⟩ := List.forall_mem_cons.mp hchunks
    obtain ⟨hend, hothers⟩ := List.forall_mem_cons.mp hends
    rw [List.flatten_cons, List.map_append, List.append_assoc, transcript_chunk hchunk hgives hend,
      ih hmore hothers]
    simp [Transcript.prepend, Output.append, Division.stderr, String.append_assoc]

theorem transcript_end {tail unread : List String} (hstarts : Starts tail)
    (hopen : ∀ line ∈ tail, ¬ Closes line)
    (hended : unread = [] ∨ tail = [] ∧ ∃ line ∈ unread.head?, Exits line) :
    transcript limit budget "" ((tail ++ unread).map some) =
      ⟨⟨prompts (tail.length + 1) ++ "\n", ""⟩, 0⟩ := by
  have hlast : transcript limit budget (textOf tail) (unread.map some) =
      ⟨⟨prompt (textOf tail) ++ "\n", ""⟩, 0⟩ := by
    rcases hended with rfl | ⟨rfl, line, hline, hexits⟩
    · rfl
    · obtain ⟨others, rfl⟩ := List.head?_eq_some_iff.mp hline
      rw [List.map_cons, transcript, textOf_eq_empty.mpr rfl, step_exit hexits]
  rw [List.map_append, transcript_open hstarts hopen, hlast, prompts_succ]
  simp [Transcript.prepend, Output.append, String.append_assoc]

end Loop

/-- The lines of an input that is a text have a division, and for each one of them the loop asks for
the lines, runs each chunk that is not blank once and by itself, and ends well. -/
theorem chunks_run_alone (limit : Nat) (input : String) :
    (∃ lines, Lines input.toList lines ∧ Nonempty (Division lines)) ∧
    ∀ lines, Lines input.toList lines → ∀ (d : Division lines) (budget : Nat),
      (∀ chunk ∈ d.chunks, ¬ Blank (textOf chunk).toList →
        EndsWithin budget limit (textOf chunk)) →
      (∃ outcomes, List.Forall₂ (fun chunk => Gives limit (textOf chunk)) d.chunks outcomes) ∧
      ∀ outcomes, List.Forall₂ (fun chunk => Gives limit (textOf chunk)) d.chunks outcomes →
        ofInput limit budget input.toUTF8 = ⟨⟨d.stdout outcomes, Division.stderr outcomes⟩, 0⟩ := by
  constructor
  · obtain ⟨lines, hlines⟩ := exists_lines input.toList
    exact ⟨lines, hlines, exists_division lines⟩
  intro lines hlines d budget hends
  refine ⟨exists_outcomes hends, fun outcomes hgives => ?_⟩
  rw [ofInput, data_toUTF8, decoded_lines hlines]
  conv_lhs => rw [d.covers, List.append_assoc, List.map_append]
  rw [transcript_chunks d.complete hgives hends, transcript_end d.starts d.incomplete d.ended]
  simp [Transcript.prepend, Output.append, Division.stdout, String.append_assoc]

/-- A chunk that prints, a blank one, and one that holds a line `exit` and fails. Then `exit` ends the
loop, and the line after it is not run. -/
theorem chunks_run_alone_exit :
    let input := "print(1);\r\n\n1 +\nexit\n;\n exit \nprint(2);"
    let lines := ["print(1);", "", "1 +", "exit", ";", " exit ", "print(2);"]
    let chunks := [["print(1);"], [""], ["1 +", "exit", ";"]]
    Lines input.toList lines ∧
    (∃ d : Division lines, d.chunks = chunks ∧ d.tail = [] ∧ d.unread = [" exit ", "print(2);"]) ∧
    (∀ chunk ∈ chunks, EndsWithin 8 1000 (textOf chunk)) ∧
    ofInput 1000 8 input.toUTF8 =
      ⟨⟨">>> 1\n>>> >>> ... ... >>> \n",
        "Error: NameError: name 'exit' is not defined (line 2, column 1)\n"⟩, 0⟩ := by
  intro input lines chunks
  have hinput : input.toList = "print(1);".toList ++ '\r' :: '\n' :: ([] ++ '\n' ::
      ("1 +".toList ++ '\n' :: ("exit".toList ++ '\n' :: (";".toList ++ '\n' ::
        (" exit ".toList ++ '\n' :: "print(2);".toList))))) := by decide
  have hlines : Lines input.toList lines := by
    rw [hinput]
    exact .returned (by decide) <| .newline (by decide) (by decide) <|
      .newline (by decide) (by decide) <| .newline (by decide) (by decide) <|
      .newline (by decide) (by decide) <| .newline (by decide) (by decide) <|
      .last (by decide) (by decide)
  have hchunks : ∀ chunk ∈ chunks, IsChunk chunk := by
    simp only [chunks, List.forall_mem_cons]
    exact ⟨⟨by decide, [], "print(1);", rfl, by decide, by decide⟩,
      ⟨by decide, [], "", rfl, by decide, by decide⟩,
      ⟨by decide, ["1 +", "exit"], ";", rfl, by decide, by decide⟩, by simp⟩
  let d : Division lines := ⟨chunks, [], [" exit ", "print(2);"], rfl, hchunks, by decide, by decide,
    .inr ⟨rfl, " exit ", rfl, by decide⟩⟩
  let fresh := Session.start 1000 .unlimited
  have print_one : Token.tokenize "print(1);\n" >>= Program.parse
      = .ok [.expr (.call ⟨1, 1⟩ "print" [.literal ⟨1, 7⟩ (.int 1)])] := by
    with_unfolding_all rfl
  have blank : Token.tokenize "\n" >>= Program.parse = .ok [] := by with_unfolding_all rfl
  have add_exit : Token.tokenize "1 +\nexit\n;\n" >>= Program.parse
      = .ok [.expr (.binary ⟨1, 1⟩ .add (.literal ⟨1, 1⟩ (.int 1)) (.var ⟨2, 1⟩ "exit"))] := by
    with_unfolding_all rfl
  have hprints : (fresh.execute 8 "print(1);\n").1 = .value .none := by
    rw [Session.execute_of_parse print_one]
    with_unfolding_all rfl
  have hprinted : (fresh.execute 8 "print(1);\n").2.output = "1\n".toUTF8 := by
    rw [Session.execute_of_parse print_one]
    with_unfolding_all rfl
  have hblank : (fresh.execute 8 "\n").1 = .value .none := by
    rw [Session.execute_of_parse blank]
    rfl
  have hfails : (fresh.execute 8 "1 +\nexit\n;\n").1 = .failed ⟨.undefined "exit", ⟨2, 1⟩⟩ := by
    rw [Session.execute_of_parse add_exit]
    rfl
  have hnothing : (fresh.execute 8 "1 +\nexit\n;\n").2.output = "".toUTF8 := by
    rw [Session.execute_of_parse add_exit]
    rfl
  have hended {source : String} {answer : Session.Answer}
      (h : (fresh.execute 8 source).1 = answer) (hcrashed : answer ≠ .crashed) (hcut : answer ≠ .cut) :
      EndsWithin 8 1000 source :=
    ⟨ne_of_eq_of_ne h hcrashed, ne_of_eq_of_ne h hcut⟩
  have hends : ∀ chunk ∈ chunks, EndsWithin 8 1000 (textOf chunk) := by
    simp only [chunks, List.forall_mem_cons]
    exact ⟨hended hprints (by simp) (by simp), hended hblank (by simp) (by simp),
      hended hfails (by simp) (by simp), by simp⟩
  have hfirst : Alone 1000 "print(1);\n" (.value .none) "1\n" :=
    ⟨⟨by simp, by simp⟩, 8, _, Prod.ext hprints rfl, hprinted⟩
  have hlast : Alone 1000 "1 +\nexit\n;\n" (.failed ⟨.undefined "exit", ⟨2, 1⟩⟩) "" :=
    ⟨⟨by simp, by simp⟩, 8, _, Prod.ext hfails rfl, hnothing⟩
  have hgives : List.Forall₂ (fun chunk => Gives 1000 (textOf chunk)) chunks
      [⟨"1\n", none⟩, ⟨"", none⟩, ⟨"", some ⟨.name, "name 'exit' is not defined", some ⟨2, 1⟩⟩⟩] :=
    .cons (.ran (by decide) hfirst) <| .cons (.blank (by decide)) <|
      .cons (.ran (by decide) hlast) .nil
  refine ⟨hlines, ⟨d, rfl, rfl, rfl⟩, hends, ?_⟩
  rw [((chunks_run_alone 1000 input).2 lines hlines d 8 fun chunk h _ => hends chunk h).2 _ hgives]
  rfl

end Repl

end Abacus
