import ApiModel.CommandLine.Run
import ApiModel.Proofs.Outcome
import ApiModel.Proofs.Output.Markup
import Mathlib.Data.List.TakeWhile

/-!
# How runs end

The work of a command is done before its first line is written, so a failure of this work leaves the
output empty. Two things may still go wrong afterwards, and neither has an exit code of its own: the
console reads an error message as markup and may not be able to show it, and the output may refuse a
line when others have been written already.

**Theorem (`perform_eq`).** A run is one piece of work, which yields all lines or a failure, and
then the writing of the lines up to the first one that is refused (`forM_print`). A failure of the
work ends the run with its message (`finish_error`), and what is raised on the way is handled last.

**Theorem (`run_failure`).** So a run that fails has written nothing to the output, unless a plain
table is cut short, and the error output ends with a message, or with what a crash leaves. A
foreseen failure has its own exit code if the console can show its message, as it can without
colours or without brackets in the message (`shows_of_plain`); otherwise it has the general one.

All this holds in every `World`: whatever is at the paths, on the input and in the network, whatever
the reader of YAML and the template engine make of it, and however failures are worded.
-/

namespace ApiModel.CommandLine

open Output

variable {w : World} {o : Options} {i : Invocation} {α β : Type}

/-! ## What is written -/

theorem written_append_assoc (a b c : Written) : a ++ b ++ c = a ++ (b ++ c) := by
  show Written.mk _ _ = Written.mk _ _
  exact congrArg₂ Written.mk (String.append_assoc ..) (String.append_assoc ..)

theorem written_append_empty (a : Written) : a ++ {} = a := by
  show Written.mk _ _ = a
  rw [String.append_empty, String.append_empty]

theorem noticesText_append (verbose : Bool) (ns ms : List Notice) :
    noticesText verbose (ns ++ ms) = noticesText verbose ns ++ noticesText verbose ms := by
  rw [noticesText, List.map_append, String.join_append]
  rfl

/-! ## Processes in a row -/

namespace Process

theorem bind_ok {x : Process α} {f : α → Process β} {a : α} (h : x.outcome = .ok a) :
    x >>= f = { written := x.written ++ (f a).written, outcome := (f a).outcome } := by
  show Process.bind x f = _
  rw [Process.bind, h]

theorem bind_error {x : Process α} {f : α → Process β} {why : Stop} (h : x.outcome = .error why) :
    x >>= f = { written := x.written, outcome := .error why } := by
  show Process.bind x f = _
  rw [Process.bind, h]

theorem bind_assoc {γ : Type} (x : Process α) (f : α → Process β) (g : β → Process γ) :
    x >>= f >>= g = x >>= fun a => f a >>= g := by
  cases hx : x.outcome with
  | error why => rw [bind_error (by rw [bind_error hx]), bind_error hx, bind_error hx]
  | ok a =>
    cases hf : (f a).outcome with
    | error why =>
      rw [bind_error (by rw [bind_ok hx, hf]), bind_ok hx, bind_ok hx, bind_error hf]
    | ok b =>
      rw [bind_ok (by rw [bind_ok hx, hf]), bind_ok hx, bind_ok hx, bind_ok hf,
        written_append_assoc]

end Process

/-! ## Handled failures -/

/-- What is written when a failure is handled. -/
def failureWritten (w : World) (o : Options) (e : Failure) : Written :=
  match e.kind?, errorShown w o (w.wording e) with
  | some _, .ok text => { stderr := text }
  | _, _ => {}

/-- How a failure that is handled ends the run. -/
def failureStop (w : World) (o : Options) (e : Failure) : Stop :=
  match e.kind?, errorShown w o (w.wording e) with
  | some _, .ok _ => .exit e.exitCode
  | some _, .error why => .raised why
  | none, _ => .raised (w.wording e)

theorem handled_error (e : Failure) : (handled w o (.error e) : Process α) =
    { written := failureWritten w o e, outcome := .error (failureStop w o e) } := by
  rw [handled, announce, failureWritten, failureStop]
  cases e.kind? with
  | none => rfl
  | some kind =>
    cases errorShown w o (w.wording e) with
    | ok text =>
      show Process.mk ({ stderr := text } ++ {}) _ = _
      rw [written_append_empty]
      rfl
    | error why => rfl

/-- The notices that are shown. -/
def log (o : Options) (x : Outcome α) : Written :=
  { stderr := noticesText o.verbose x.notices }

theorem attended_ok {x : Outcome α} {a : α} (h : x.outcome = .ok a) :
    attended w o x = { written := log o x, outcome := .ok a } := by
  rw [attended, h]
  show Process.mk (log o x ++ {}) _ = _
  rw [written_append_empty]
  rfl

theorem attended_error {x : Outcome α} {e : Failure} (h : x.outcome = .error e) :
    attended w o x = { written := log o x ++ failureWritten w o e
                       outcome := .error (failureStop w o e) } := by
  rw [attended, h, handled_error]
  rfl

/-- Work is attended as a whole as it is part by part. -/
theorem attended_bind (x : Outcome α) (f : α → Outcome β) :
    attended w o (x >>= f) = attended w o x >>= fun a => attended w o (f a) := by
  cases h : x.outcome with
  | ok a =>
    have hwhole := Report.bind_of_ok (f := f) h
    have hlog : log o (x >>= f) = log o x ++ log o (f a) := by
      rw [hwhole, log, noticesText_append]
      rfl
    rw [Process.bind_ok (by rw [attended_ok h]), attended_ok h]
    cases hf : (f a).outcome with
    | ok b => rw [attended_ok hf, attended_ok (by rw [hwhole, hf]), hlog]
    | error e =>
      rw [attended_error hf, attended_error (by rw [hwhole, hf]), hlog, written_append_assoc]
  | error e =>
    have hwhole := Report.bind_of_error (f := f) h
    rw [Process.bind_error (by rw [attended_error h]), attended_error h,
      attended_error (by rw [hwhole]), hwhole]
    rfl

/-! ## Lines in a row -/

/-- The lines up to the first one that the output refuses. -/
def accepted (w : World) (texts : List String) : List String :=
  texts.takeWhile fun text => (w.refusal text).isNone

/-- Lines are written one by one up to the first one that is refused, and then the refusal is
raised. -/
theorem forM_print (texts : List String) : texts.forM (print w) =
    { written := { stdout := String.join ((accepted w texts).map line) }
      outcome := match texts.findSome? w.refusal with
        | none => .ok ()
        | some why => .error (.raised why) } := by
  induction texts with
  | nil => rfl
  | cons text texts ih =>
    show print w text >>= (fun _ => texts.forM (print w)) = _
    cases hrefusal : w.refusal text with
    | none =>
      have hprint : print w text = .write { stdout := line text } := by rw [print, hrefusal]
      have haccepted : accepted w (text :: texts) = text :: accepted w texts :=
        List.takeWhile_cons_of_pos (by rw [hrefusal]; rfl)
      rw [hprint, Process.bind_ok rfl, ih, haccepted, List.findSome?_cons, hrefusal, List.map_cons,
        String.join_cons]
      rfl
    | some why =>
      have hprint : print w text = .stop (.raised why) := by rw [print, hrefusal]
      have haccepted : accepted w (text :: texts) = [] :=
        List.takeWhile_cons_of_neg (by rw [hrefusal]; exact Bool.false_ne_true)
      rw [hprint, Process.bind_error rfl, haccepted, List.findSome?_cons, hrefusal]
      rfl

theorem accepted_eq_self_iff {texts : List String} :
    accepted w texts = texts ↔ texts.findSome? w.refusal = none := by
  rw [accepted, List.takeWhile_eq_self_iff, List.findSome?_eq_none_iff]
  simp

/-! ## The end of a run -/

/-- What is raised is handled last, behind what has been written. -/
def lastWords (w : World) (o : Options) (written : Written) (words : String) : Transcript :=
  finish w o { written, outcome := .error (.raised words) }

/-- The error output ends with an error message or with what a crash leaves. -/
def Diagnosed (w : World) (o : Options) (t : Transcript) : Prop :=
  ∃ before diagnostic, t.stderr = before ++ diagnostic ∧
    ((∃ message, errorShown w (consoleOf w o) message = .ok diagnostic) ∨
      ∃ words, diagnostic = crashText words)

/-- The console can show the message. -/
def Shows (w : World) (o : Options) (message : String) : Prop :=
  ∃ text, errorShown w o message = .ok text

/-- The last words fail with the general exit code, write nothing more to the output and tell what
was raised. -/
theorem lastWords_spec (w : World) (o : Options) (written : Written) (words : String) :
    (lastWords w o written words).exitCode = 1 ∧
      (lastWords w o written words).stdout = written.stdout ∧
      Diagnosed w o (lastWords w o written words) := by
  have houtput (diagnostic : String) :
      (written ++ { stderr := diagnostic } : Written).stdout = written.stdout := String.append_empty
  rw [lastWords, finish]
  simp only
  cases hshown : errorShown w (consoleOf w o) ("Unexpected error: " ++ words) with
  | ok text => exact ⟨rfl, houtput text, written.stderr, text, rfl, .inl ⟨_, hshown⟩⟩
  | error why => exact ⟨rfl, houtput _, written.stderr, _, rfl, .inr ⟨why, rfl⟩⟩

/-! ## Runs whose work fails -/

section Failing

variable {x : Outcome α} {e : Failure} (f : α → Process Unit)

/-- How a run ends when a part of its work fails. -/
theorem finish_error (h : x.outcome = .error e) :
    finish w o (attended w (consoleOf w o) x >>= f) =
      match e.kind?, errorShown w (consoleOf w o) (w.wording e) with
      | some _, .ok text => .of (log (consoleOf w o) x ++ { stderr := text }) e.exitCode
      | some _, .error why => lastWords w o (log (consoleOf w o) x) why
      | none, _ => lastWords w o (log (consoleOf w o) x) (w.wording e) := by
  rw [Process.bind_error (by rw [attended_error h]), attended_error h, failureWritten, failureStop]
  simp only
  cases e.kind? with
  | none => rw [written_append_empty]; rfl
  | some kind =>
    cases errorShown w (consoleOf w o) (w.wording e) with
    | ok text => rfl
    | error why => rw [written_append_empty]; rfl

/-- A run whose work fails has written nothing to the output. -/
theorem finish_error_spec (h : x.outcome = .error e) :
    (finish w o (attended w (consoleOf w o) x >>= f)).stdout = "" ∧
      Diagnosed w o (finish w o (attended w (consoleOf w o) x >>= f)) := by
  rw [finish_error f h]
  split
  · rename_i hshown
    exact ⟨String.append_empty, _, _, rfl, .inl ⟨_, hshown⟩⟩
  · exact (lastWords_spec w o _ _).2
  · exact (lastWords_spec w o _ _).2

/-- A foreseen failure whose message can be shown ends the run with the message and the exit code of
the failure. -/
theorem finish_shown {text : String} (h : x.outcome = .error e) (hforeseen : e.kind?.isSome = true)
    (hshown : errorShown w (consoleOf w o) (w.wording e) = .ok text) :
    (finish w o (attended w (consoleOf w o) x >>= f)).exitCode = e.exitCode ∧
      ∃ before, (finish w o (attended w (consoleOf w o) x >>= f)).stderr = before ++ text := by
  obtain ⟨kind, hkind⟩ := Option.isSome_iff_exists.1 hforeseen
  rw [finish_error f h]
  simp only [hkind, hshown]
  exact ⟨rfl, _, rfl⟩

/-- A failure that is not foreseen, or whose message cannot be shown, ends the run with the general
exit code. -/
theorem finish_unshown (h : x.outcome = .error e)
    (hshown : e.kind? = none ∨ ¬ Shows w (consoleOf w o) (w.wording e)) :
    (finish w o (attended w (consoleOf w o) x >>= f)).exitCode = 1 := by
  rw [finish_error f h]
  split
  · rename_i hkind htext
    rcases hshown with hnone | hshown
    · rw [hnone] at hkind
      cases hkind
    · exact absurd ⟨_, htext⟩ hshown
  · exact (lastWords_spec w o _ _).1
  · exact (lastWords_spec w o _ _).1

end Failing

/-! ## Runs -/

/-- The lines that a run is to write, or why it has none. -/
def result (w : World) (i : Invocation) : Outcome (List String) := do
  let format ← attempt .project (formatOf w i.toOptions)
  let client ← loadClient w i.spec
  lines w format i.command client

/-- A run settles the format and makes all lines before it writes the first one. -/
theorem perform_eq (w : World) (i : Invocation) : perform w i =
    attended w (consoleOf w i.toOptions) (result w i) >>= fun texts => texts.forM (print w) := by
  rw [result, attended_bind, Process.bind_assoc]
  simp only [attended_bind, Process.bind_assoc]
  rfl

/-- Some lines are written, but not all. -/
def CutShort (w : World) (i : Invocation) : Prop :=
  ∃ texts, (result w i).outcome = .ok texts ∧ accepted w texts ≠ [] ∧ accepted w texts ≠ texts

/-- Nothing is on the output exactly if no line has been written. -/
theorem join_lines_eq_empty_iff {texts : List String} :
    String.join (texts.map line) = "" ↔ texts = [] := by
  cases texts with
  | nil => exact iff_of_true rfl rfl
  | cons text texts =>
    refine iff_of_false ?_ (List.cons_ne_nil _ _)
    rw [List.map_cons, String.join_cons, String.append_eq_empty_iff, line,
      String.append_eq_empty_iff]
    exact fun h => absurd h.1.2 (by decide)

/-- A run that has made its lines writes those before the first one that is refused. It fails if
there is one. -/
theorem invoke_ok {texts : List String} (h : (result w i).outcome = .ok texts) :
    (invoke w i).stdout = String.join ((accepted w texts).map line) ∧
      (accepted w texts = texts → (invoke w i).exitCode = 0) ∧
      (accepted w texts ≠ texts →
        (invoke w i).exitCode = 1 ∧ Diagnosed w i.toOptions (invoke w i)) := by
  rw [Ne, accepted_eq_self_iff, invoke, perform_eq, Process.bind_ok (by rw [attended_ok h]),
    attended_ok h, forM_print]
  simp only
  cases texts.findSome? w.refusal with
  | none => exact ⟨String.empty_append, fun _ => rfl, fun hpart => absurd rfl hpart⟩
  | some why =>
    obtain ⟨hcode, hout, hdiagnosed⟩ := lastWords_spec w i.toOptions
      (log (consoleOf w i.toOptions) (result w i) ++
        { stdout := String.join ((accepted w texts).map line) }) why
    refine ⟨hout.trans String.empty_append, ?_, fun _ => ⟨hcode, hdiagnosed⟩⟩
    rintro ⟨⟩

/-- The format in use is JSON or plain, unless it is the rich one. -/
theorem formatOf_cases {format : Format} (h : formatOf w o = .ok format) :
    format = .json ∨ format = .plain ∨ format = .rich := by
  have hresolve (f : Format) : f.resolve = .json ∨ f.resolve = .plain ∨ f.resolve = .rich := by
    cases f <;> decide
  unfold formatOf at h
  split_ifs at h
  · exact .inl (Except.ok.inj h).symm
  · exact .inr (.inl (Except.ok.inj h).symm)
  · split at h
    · rw [← Except.ok.inj h]
      exact hresolve _
    · split_ifs at h
      rw [← Except.ok.inj h]
      exact hresolve _

theorem attempt_eq_ok {ε : Type} {wrap : ε → Failure} {r : Except ε α} {a : α} :
    (attempt wrap r).outcome = .ok a ↔ r = .ok a := by
  cases r <;> simp [attempt, Report.mapFailure, Report.ofExcept, Except.mapError]

theorem attempt_eq_error {ε : Type} {wrap : ε → Failure} {r : Except ε α} {e : Failure} :
    (attempt wrap r).outcome = .error e ↔ ∃ fault, r = .error fault ∧ wrap fault = e := by
  cases r <;> simp [attempt, Report.mapFailure, Report.ofExcept, Except.mapError]

theorem tableLines_json (headers : List String) (rows : List (List String)) :
    ∃ text, tableLines .json headers rows = [text] := ⟨_, rfl⟩

/-- Only a plain table has more lines than one. -/
theorem lines_of_result {texts : List String} (hformat : formatOf w i.toOptions ≠ .ok .rich)
    (h : (result w i).outcome = .ok texts) : (∃ text, texts = [text]) ∨
      formatOf w i.toOptions = .ok .plain ∧ (i.command = .models ∨ i.command = .services) := by
  obtain ⟨format, hsettled, h⟩ := Report.bind_eq_ok.1 h
  obtain ⟨client, -, h⟩ := Report.bind_eq_ok.1 h
  replace hsettled : formatOf w i.toOptions = .ok format := attempt_eq_ok.1 hsettled
  have hplain (hjson : format ≠ .json) : formatOf w i.toOptions = .ok .plain := by
    rw [hsettled] at hformat ⊢
    rw [((formatOf_cases hsettled).resolve_left hjson).resolve_right fun h => hformat (by rw [h])]
  cases hcommand : i.command with
  | inspect =>
    rw [hcommand] at h
    cases h
    exact .inl ⟨_, rfl⟩
  | render templates template =>
    rw [hcommand] at h
    obtain ⟨text, -, h⟩ := Report.bind_eq_ok.1 h
    cases h
    exact .inl ⟨_, rfl⟩
  | models =>
    by_cases hjson : format = .json
    · rw [hcommand, hjson] at h
      cases h
      exact .inl (tableLines_json _ _)
    · exact .inr ⟨hplain hjson, .inl rfl⟩
  | services =>
    by_cases hjson : format = .json
    · rw [hcommand, hjson] at h
      cases h
      exact .inl (tableLines_json _ _)
    · exact .inr ⟨hplain hjson, .inr rfl⟩

/-- Only a plain table is cut short. -/
theorem CutShort.plain (h : CutShort w i) (hformat : formatOf w i.toOptions ≠ .ok .rich) :
    formatOf w i.toOptions = .ok .plain ∧ (i.command = .models ∨ i.command = .services) := by
  obtain ⟨texts, hresult, hsome, hall⟩ := h
  refine (lines_of_result hformat hresult).resolve_left ?_
  rintro ⟨text, rfl⟩
  -- Of a single line there is no part.
  cases hrefusal : w.refusal text with
  | none => exact hall (List.takeWhile_cons_of_pos (by rw [hrefusal]; rfl))
  | some why =>
    exact hsome (List.takeWhile_cons_of_neg (by rw [hrefusal]; exact Bool.false_ne_true))

/-! ## Messages that can be shown -/

/-- What is read of an error message before the message itself. -/
theorem exists_reading_of_heading : ∃ r,
    "[bold red]Error:[/bold red] ".toList.foldlM Markup.Reading.step {} = .ok r ∧
      r.body = none := ⟨_, rfl, rfl⟩

/-- A console shows every message without colours, and if it reads markup as usual, every message in
which no bracket opens. -/
theorem shows_of_plain {message : String} (h : mayUseColours w o = false ∨
    w.markup = Markup.shown ∧ '[' ∉ message.toList) : Shows w o message := by
  rw [Shows, errorShown]
  rcases h with h | ⟨hmarkup, hplain⟩
  · rw [h]
    exact ⟨_, rfl⟩
  · split_ifs
    · obtain ⟨r, hheading, hbody⟩ := exists_reading_of_heading
      rw [hmarkup, Markup.shown_append_of_plain hheading hbody hplain]
      exact ⟨_, rfl⟩
    · exact ⟨_, rfl⟩

/-! ## Runs that fail -/

variable {args : List String}

theorem run_eq (hargs : parse args = .invocation i) : run w args = invoke w i := by
  rw [run, hargs]

/-- That the format cannot be settled is not foreseen. -/
theorem unforeseen_format {e : Failure}
    (h : (attempt .project (formatOf w o)).outcome = .error e) : e.kind? = none := by
  obtain ⟨⟨path, problem⟩, hformat, rfl⟩ := attempt_eq_error.1 h
  unfold formatOf at hformat
  split_ifs at hformat
  split at hformat
  · cases hformat
  · split_ifs at hformat with hhidden
    cases hformat
    cases problem with
    | hidden why => rfl
    | _ => cases hhidden

/-- Arguments that are not understood leave nothing on the output, and on the error output how the
program is called, unless the format cannot be settled before. -/
theorem run_misused (hargs : parse args = .misused o) : (run w args).stdout = "" ∧
    ((run w args).exitCode = 2 ∧ (run w args).stderr = usageText ∨
      (run w args).exitCode = 1 ∧ Diagnosed w o (run w args)) := by
  have hrun : run w args = finish w o (explain w o { stderr := usageText } 2) := by rw [run, hargs]
  rw [hrun, explain, settle]
  cases h : (attempt .project (formatOf w o)).outcome with
  | ok format =>
    rw [Process.bind_ok (by rw [attended_ok h]), attended_ok h]
    refine ⟨rfl, .inl ⟨rfl, ?_⟩⟩
    show "" ++ (usageText ++ "") = usageText
    rw [String.empty_append, String.append_empty]
  | error e =>
    have hunforeseen : e.kind? = none := unforeseen_format h
    obtain ⟨hout, hdiagnosed⟩ := finish_error_spec _ h
    exact ⟨hout, .inr ⟨finish_unshown _ h (.inl hunforeseen), hdiagnosed⟩⟩

/-- A run that fails has written nothing to the output unless a plain table is cut short, and the
error output ends with a message or with what a crash leaves. A foreseen failure has its message and
its exit code if the console can show the message; any other failure has the general exit code. -/
theorem run_failure (w : World) (args : List String) :
    (∀ o, parse args = .misused o → (run w args).stdout = "" ∧
      ((run w args).exitCode = 2 ∧ (run w args).stderr = usageText ∨
        (run w args).exitCode = 1 ∧ Diagnosed w o (run w args))) ∧
    ∀ i, parse args = .invocation i → formatOf w i.toOptions ≠ .ok .rich →
      ((run w args).exitCode ≠ 0 →
        ((run w args).stdout = "" ↔ ¬ CutShort w i) ∧ Diagnosed w i.toOptions (run w args)) ∧
      (CutShort w i → (run w args).exitCode = 1 ∧
        formatOf w i.toOptions = .ok .plain ∧ (i.command = .models ∨ i.command = .services)) ∧
      ∀ e, (result w i).outcome = .error e → (run w args).stdout = "" ∧
        (e.kind?.isSome = true →
          ∀ text, errorShown w (consoleOf w i.toOptions) (w.wording e) = .ok text →
            (run w args).exitCode = e.exitCode ∧
              ∃ before, (run w args).stderr = before ++ text) ∧
        (e.kind? = none ∨ ¬ Shows w (consoleOf w i.toOptions) (w.wording e) →
          (run w args).exitCode = 1) := by
  refine ⟨fun o => run_misused, fun i hargs hformat => ?_⟩
  rw [run_eq hargs]
  refine ⟨fun hfail => ?_, fun hcut => ⟨?_, hcut.plain hformat⟩, fun e he => ?_⟩
  · cases h : (result w i).outcome with
    | ok texts =>
      obtain ⟨hout, hwhole, hpart⟩ := invoke_ok h
      have hpart' : accepted w texts ≠ texts := fun hall => hfail (hwhole hall)
      refine ⟨?_, (hpart hpart').2⟩
      rw [hout, join_lines_eq_empty_iff]
      constructor
      · rintro hnone ⟨texts', h', hsome, -⟩
        obtain rfl := Except.ok.inj (h.symm.trans h')
        exact hsome hnone
      · exact fun hcut => by_contra fun hsome => hcut ⟨texts, h, hsome, hpart'⟩
    | error e =>
      rw [invoke, perform_eq]
      obtain ⟨hout, hdiagnosed⟩ := finish_error_spec _ h
      refine ⟨iff_of_true hout ?_, hdiagnosed⟩
      rintro ⟨texts, h', -⟩
      rw [h] at h'
      cases h'
  · obtain ⟨texts, h, -, hpart⟩ := hcut
    exact ((invoke_ok h).2.2 hpart).1
  · rw [invoke, perform_eq]
    exact ⟨(finish_error_spec _ he).1, fun hforeseen text => finish_shown _ he hforeseen,
      finish_unshown _ he⟩

/-- Inspect a document in plain format. -/
def inspection (spec : String) : Invocation :=
  { plain := true, spec := some spec, command := .inspect }

/-- An inspection has no lines if its document is that of a file which cannot be loaded. -/
theorem result_inspection {spec : String} {fault : Source.Fault} (hspec : spec ≠ "" ∧ spec ≠ "-")
    (haddress : Source.isAddress spec = false)
    (hsettings : resolve w { spec := some spec } = pure { spec := some spec })
    (hload : Source.loadFile w.yaml w.folder (.ofText spec) = .error fault) :
    (result w (inspection spec)).outcome = .error (.source fault) := by
  have hgiven : (some spec).filter (· ≠ "") = some spec := by simp [hspec.1]
  have hsettings' : resolve w { spec := (inspection spec).spec } =
      pure { spec := some spec } := hsettings
  have hformat : attempt .project (formatOf w (inspection spec).toOptions) = pure .plain := rfl
  have hsource : Source.load w.toSurroundings spec = .error fault := by
    rw [Source.load, if_neg hspec.2, haddress, if_neg Bool.false_ne_true, hload]
  rw [result, hformat, pure_bind, loadClient, hsettings', pure_bind]
  simp only [hgiven, hsource]
  rfl

/-- Why a file may not be read. -/
def denial : String := "[Errno 13] Permission denied: '/specs/pets.json'"

/-- Surroundings without colours and with one file, which may not be read. -/
def locked : World where
  folder :=
    { location := "/home"
      entry := fun path =>
        if path = .ofText "/specs/pets.json" then .file (.refused denial) else .nothing
      below := fun _ => [] }
  input := ""
  fetch := fun _ => .failure ""
  environment := [("NO_COLOR", "1")]

theorem run_failure_locked :
    (run locked ["--plain", "inspect", "/specs/pets.json"]).exitCode = 7 ∧
      (run locked ["--plain", "inspect", "/specs/pets.json"]).stdout = "" ∧
      ∃ before, (run locked ["--plain", "inspect", "/specs/pets.json"]).stderr =
        before ++ ("Error: Failed to read spec file /specs/pets.json: " ++ denial ++ "\n") := by
  have hargs : parse ["--plain", "inspect", "/specs/pets.json"] =
      .invocation (inspection "/specs/pets.json") := by decide +kernel
  have hformat : formatOf locked (inspection "/specs/pets.json").toOptions ≠ .ok .rich := nofun
  have hpath : (Path.ofText "/specs/pets.json").text = "/specs/pets.json" := by decide +kernel
  have hload : Source.loadFile locked.yaml locked.folder (.ofText "/specs/pets.json") =
      .error (.unreadableFile "/specs/pets.json" denial) := by
    have hentry : locked.folder.entry (.ofText "/specs/pets.json") = .file (.refused denial) := by
      simp [locked]
    rw [Source.loadFile, hentry]
    simp only [Content.unified, hpath]
  have hresult := result_inspection ⟨by decide, by decide⟩ (by decide +kernel) rfl hload
  have hshown : errorShown locked (consoleOf locked (inspection "/specs/pets.json").toOptions)
      (Failure.source (.unreadableFile "/specs/pets.json" denial)).message =
      .ok ("Error: Failed to read spec file /specs/pets.json: " ++ denial ++ "\n") := rfl
  obtain ⟨hout, hexit, -⟩ := ((run_failure locked _).2 _ hargs hformat).2.2 _ hresult
  obtain ⟨hcode, herr⟩ := hexit rfl _ hshown
  exact ⟨hcode, hout, herr⟩

/-- Surroundings with no file, no input and no variables. -/
def nowhere : World where
  folder := .ofFiles "/" []
  input := ""
  fetch := fun _ => .failure ""
  environment := []

/-- A file name may be a marked-up text that no console can show, and then the exit code of the
failure is lost. -/
theorem not_all_exit_codes_kept : ¬ ∀ (w : World) (args : List String) (i : Invocation)
    (e : Failure), parse args = .invocation i → formatOf w i.toOptions ≠ .ok .rich →
      (result w i).outcome = .error e → e.kind?.isSome = true →
      (run w args).exitCode = e.exitCode := by
  intro h
  have hload : Source.loadFile nowhere.yaml nowhere.folder (.ofText "[@click=(]x[/]") =
      .error (.missingFile (Path.ofText "[@click=(]x[/]").text) := by
    rw [Source.loadFile, show nowhere.folder.entry (.ofText "[@click=(]x[/]") = .nothing from rfl]
  have hresult := result_inspection ⟨by decide, by decide⟩ (by decide +kernel) rfl hload
  have hcode : (run nowhere ["--plain", "inspect", "[@click=(]x[/]"]).exitCode = 7 :=
    h nowhere _ (inspection "[@click=(]x[/]") _ (by decide +kernel) nofun hresult rfl
  have hrun : (run nowhere ["--plain", "inspect", "[@click=(]x[/]"]).exitCode = 1 := by
    decide +kernel
  rw [hrun] at hcode
  exact absurd hcode (by decide)

end ApiModel.CommandLine
