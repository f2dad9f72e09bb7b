import MailFilter.Delivery.Notice
import MailFilter.Proofs.Text.Lines

/-!
# The lines of a notice

A notice is written as header lines, an empty line and a body. It is read like that as long as no
line end is in what it puts into its header lines. Nothing keeps one out: a subject is taken as it
is from the script or from the message that is answered, and if a line end is in it, what is behind
the line end becomes a header line of its own.
-/

namespace MailFilter.Notice

open Text (lines sections compose Unbroken)

/-- The header lines of a notice that brings none in its body. -/
def headerLines (notice : Notice) : List String :=
  ["From: <" ++ notice.sender ++ ">", "To: <" ++ notice.recipient ++ ">",
      "Subject: " ++ notice.subject] ++
    (notice.answered.elim [] fun id => ["In-Reply-To: " ++ id, "References: " ++ id]) ++
    ["Auto-Submitted: auto-replied", "Content-Type: text/plain; charset=utf-8"]

/-- The body, with a line end behind it unless it ends in a newline. -/
def endedBody (notice : Notice) : String :=
  notice.body ++ if notice.body.toList.getLast? = some '\n' then "" else "\r\n"

/-- What a notice puts into its header lines. -/
def fields (notice : Notice) : List String :=
  [notice.sender, notice.recipient, notice.subject] ++ notice.answered.toList

/-- A notice is its header lines, an empty line and its body. -/
theorem toList_text {notice : Notice} (hmime : notice.mime = false) :
    notice.text.toList =
      compose (notice.headerLines.map String.toList) notice.endedBody.toList := by
  unfold text content threadLines headerLines endedBody compose
  rw [hmime]
  cases notice.answered <;> simp [Text.lineEnd]

/-- No header line of a notice is empty. -/
theorem nil_not_mem_headerLines (notice : Notice) :
    [] ∉ notice.headerLines.map String.toList := by
  rw [headerLines]
  cases notice.answered <;> simp

/-- The label before a field has no part in a line end. -/
theorem unbroken_labelled_iff (label : String) (hlabel : '\r' ∉ label.toList) {field : String} :
    Unbroken (label ++ field).toList ↔ Unbroken field.toList := by
  rw [String.toList_append, Text.unbroken_append_right hlabel]

/-- Neither has the bracket behind it. -/
theorem unbroken_bracketed_iff (label : String) (hlabel : '\r' ∉ label.toList) {field : String} :
    Unbroken (label ++ field ++ ">").toList ↔ Unbroken field.toList := by
  rw [String.toList_append, Text.unbroken_append_left (by decide),
    unbroken_labelled_iff label hlabel]

/-- The header lines are unbroken if what a notice puts into them is. -/
theorem unbroken_headerLines_iff (notice : Notice) :
    (∀ line ∈ notice.headerLines.map String.toList, Unbroken line) ↔
      ∀ field ∈ notice.fields, Unbroken field.toList := by
  have hsender : _ ↔ Unbroken notice.sender.toList :=
    unbroken_bracketed_iff "From: <" (by decide)
  have hrecipient : _ ↔ Unbroken notice.recipient.toList :=
    unbroken_bracketed_iff "To: <" (by decide)
  have hsubject : _ ↔ Unbroken notice.subject.toList :=
    unbroken_labelled_iff "Subject: " (by decide)
  have hprogram : Unbroken "Auto-Submitted: auto-replied".toList :=
    Text.unbroken_of_not_mem (by decide)
  have htype : Unbroken "Content-Type: text/plain; charset=utf-8".toList :=
    Text.unbroken_of_not_mem (by decide)
  rw [List.forall_mem_map, headerLines, fields]
  cases notice.answered with
  | none =>
    simp only [Option.elim_none, Option.toList_none, List.append_nil, List.cons_append,
      List.nil_append, List.forall_mem_cons, hsender, hrecipient, hsubject, hprogram, htype,
      true_and]
  | some id =>
    have hanswer : _ ↔ Unbroken id.toList :=
      unbroken_labelled_iff "In-Reply-To: " (by decide)
    have hthread : _ ↔ Unbroken id.toList :=
      unbroken_labelled_iff "References: " (by decide)
    simp only [Option.elim_some, Option.toList_some, List.cons_append, List.nil_append,
      List.forall_mem_cons, hsender, hrecipient, hsubject, hanswer, hthread, hprogram, htype,
      true_and, and_self_left]

/-- A reader of a notice finds a header line for each line of the header lines it was written with,
and then its body. So it finds just those header lines if no field has a line end in it, and only
then. -/
theorem sections_text_iff (sender recipient subject : String) (answered : Option String)
    (body : String) :
    let notice : Notice := ⟨sender, recipient, subject, answered, false, body⟩
    let header := notice.headerLines.map String.toList
    lines notice.text.toList = header.flatMap lines ++ [] :: lines notice.endedBody.toList ∧
      (sections notice.text.toList = (header, some notice.endedBody.toList) ↔
        ∀ field ∈ notice.fields, Unbroken field.toList) := by
  intro notice header
  rw [toList_text rfl]
  exact ⟨Text.lines_compose header notice.endedBody.toList,
    (Text.sections_compose_iff notice.nil_not_mem_headerLines notice.endedBody.toList).trans
      notice.unbroken_headerLines_iff⟩

/-- A subject with a line end in it makes a header line that nobody meant to write. -/
theorem sections_text_forged :
    let notice : Notice := ⟨"b@x", "a@x", "Hi\r\nBcc: c@x", none, false, "Away"⟩
    sections notice.text.toList =
        (["From: <b@x>", "To: <a@x>", "Subject: Hi", "Bcc: c@x", "Auto-Submitted: auto-replied",
            "Content-Type: text/plain; charset=utf-8"].map String.toList,
          some "Away\r\n".toList) ∧
      sections notice.text.toList ≠
        (notice.headerLines.map String.toList, some notice.endedBody.toList) := by
  decide +kernel

end MailFilter.Notice
