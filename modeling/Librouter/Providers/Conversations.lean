/-
# One conversation, three vendors

OpenAI takes the messages as they are.  Anthropic and Google take the system texts apart from the
others; their loops differ in what they make of a message only, so one lemma says what both of them
collect (`splitLoop_eq`).

Nothing is lost, merged or repeated.  But Google has no tool messages, and `_convert_messages` takes
everything that is not the user's for the model's: a failover to Google puts the output of a tool
into the model's mouth.  Without tool messages the three agree, and only then
(`conversationsAgree_iff`).
-/
import Librouter.Providers

namespace Librouter

/-! ## 1. What the loops collect -/

/-- The messages that are not the system's. -/
def conversation (messages : List Message) : List Message :=
  messages.filter fun m => m.role ≠ .system

/-- The texts of the others. -/
def systemContents (messages : List Message) : List String :=
  (messages.filter fun m => m.role = .system).map Message.content

theorem splitLoop_eq {α : Type} (convert : Message → α) (messages : List Message) :
    splitLoop convert messages =
      (systemContents messages, (conversation messages).map convert) := by
  have hloop : ∀ (messages : List Message) (acc : List String × List α),
      messages.foldl (splitStep convert) acc =
        (acc.1 ++ systemContents messages, acc.2 ++ (conversation messages).map convert) := by
    intro messages
    induction messages with
    | nil => simp [systemContents, conversation]
    | cons m messages ih =>
      intro acc
      rw [List.foldl_cons, ih]
      by_cases hm : m.role = .system
      · simp [splitStep, hm, systemContents, conversation]
      · simp [splitStep, hm, systemContents, conversation]
  exact hloop messages ([], [])

theorem joinSystem_eq_none_iff {parts : List String} : joinSystem parts = none ↔ parts = [] := by
  simp [joinSystem]

theorem joinSystem_eq_some_iff {parts : List String} {text : String} :
    joinSystem parts = some text ↔ parts ≠ [] ∧ text = "\n\n".intercalate parts := by
  simp [joinSystem, eq_comm]

theorem systemContents_eq_nil_iff {messages : List Message} :
    systemContents messages = [] ↔ ∀ m ∈ messages, m.role ≠ .system := by
  simp [systemContents]

theorem splitSystem_eq (messages : List Message) : splitSystem messages =
    (joinSystem (systemContents messages), (conversation messages).map Message.modelDump) := by
  simp only [splitSystem, splitLoop_eq]
  rfl

theorem convertMessages_eq (messages : List Message) : convertMessages messages =
    (joinSystem (systemContents messages), (conversation messages).map fun m =>
      ⟨if m.role = .user then "user" else "model", [m.content]⟩) := by
  simp only [convertMessages, splitLoop_eq]

theorem Role.text_inj {role role' : Role} (h : role.text = role'.text) : role = role' := by
  cases role <;> cases role' <;> first | rfl | exact absurd h (by decide)

/-- **OpenAI gets, besides the system messages, what Anthropic gets.** -/
theorem openaiMessages_filter (messages : List Message) :
    (openaiMessages messages).filter (fun m => m.role ≠ "system") =
      (splitSystem messages).2 := by
  rw [splitSystem_eq, openaiMessages, List.filter_map, conversation]
  congr 1
  refine List.filter_congr fun m _ => decide_eq_decide.mpr (not_congr ?_)
  exact ⟨fun h => Role.text_inj (h : m.role.text = Role.system.text), fun h => congrArg Role.text h⟩

/-! ## 2. Agreement -/

/-- The message is not presented as the assistant's, unless it is. -/
def NotPutInMouth (assistant : String) (m : Message) (role : String) : Prop :=
  m.role ≠ .assistant → role ≠ assistant

/-- Every vendor gets the same conversation. -/
structure ConversationsAgree (messages : List Message) : Prop where
  system : (splitSystem messages).1 = (convertMessages messages).1
  noSystem : (splitSystem messages).1 = none ↔ ∀ m ∈ messages, m.role ≠ .system
  systemText : ∀ text, (splitSystem messages).1 = some text →
    text = "\n\n".intercalate (systemContents messages)
  openai : ((openaiMessages messages).filter fun m => m.role ≠ "system").map
    VendorMessage.content = (conversation messages).map Message.content
  anthropic : (splitSystem messages).2.map VendorMessage.content =
    (conversation messages).map Message.content
  google : (convertMessages messages).2.map GoogleContent.parts =
    (conversation messages).map fun m => [m.content]
  openaiRoles : List.Forall₂ (fun m w => NotPutInMouth "assistant" m w.role) (conversation messages)
    ((openaiMessages messages).filter fun m => m.role ≠ "system")
  anthropicRoles : List.Forall₂ (fun m w => NotPutInMouth "assistant" m w.role)
    (conversation messages) (splitSystem messages).2
  googleRoles : List.Forall₂ (fun m w => NotPutInMouth "model" m w.role)
    (conversation messages) (convertMessages messages).2

theorem forall₂_map_iff {α β : Type} {R : α → β → Prop} {f : α → β} {l : List α} :
    List.Forall₂ R l (l.map f) ↔ ∀ a ∈ l, R a (f a) := by
  rw [List.forall₂_map_right_iff, List.forall₂_same]

theorem notPutInMouth_text (m : Message) : NotPutInMouth "assistant" m m.role.text :=
  fun hne heq => hne (Role.text_inj (heq : m.role.text = Role.assistant.text))

/-- For Google only the user's messages are told apart from the model's. -/
theorem notPutInMouth_google_iff {m : Message} (hm : m.role ≠ .system) :
    NotPutInMouth "model" m (if m.role = .user then "user" else "model") ↔ m.role ≠ .tool := by
  unfold NotPutInMouth
  cases hrole : m.role with
  | system => exact absurd hrole hm
  | user | assistant | tool => simp

theorem mem_conversation {messages : List Message} {m : Message} :
    m ∈ conversation messages ↔ m ∈ messages ∧ m.role ≠ .system := by
  simp [conversation]

/-- **The vendors get the same conversation if and only if there is no tool message in it.** -/
theorem conversationsAgree_iff (messages : List Message) :
    ConversationsAgree messages ↔ ∀ m ∈ messages, m.role ≠ .tool := by
  have hgoogle : List.Forall₂ (fun m w => NotPutInMouth "model" m w.role)
      (conversation messages) (convertMessages messages).2 ↔ ∀ m ∈ messages, m.role ≠ .tool := by
    rw [convertMessages_eq, forall₂_map_iff]
    constructor
    · intro h m hm
      by_cases hsystem : m.role = .system
      · rw [hsystem]
        decide
      · exact (notPutInMouth_google_iff hsystem).mp (h m (mem_conversation.mpr ⟨hm, hsystem⟩))
    · intro h m hm
      obtain ⟨hmem, hsystem⟩ := mem_conversation.mp hm
      exact (notPutInMouth_google_iff hsystem).mpr (h m hmem)
  have hanthropic : List.Forall₂ (fun m w => NotPutInMouth "assistant" m w.role)
      (conversation messages) (splitSystem messages).2 := by
    rw [splitSystem_eq, forall₂_map_iff]
    exact fun m _ => notPutInMouth_text m
  have hcontents : (splitSystem messages).2.map VendorMessage.content =
      (conversation messages).map Message.content := by
    rw [splitSystem_eq, List.map_map]
    rfl
  refine ⟨fun h => hgoogle.mp h.googleRoles, fun h => ?_⟩
  refine ⟨?_, ?_, ?_, ?_, hcontents, ?_, ?_, hanthropic, hgoogle.mpr h⟩
  · rw [splitSystem_eq, convertMessages_eq]
  · rw [splitSystem_eq, joinSystem_eq_none_iff, systemContents_eq_nil_iff]
  · intro text htext
    rw [splitSystem_eq] at htext
    exact (joinSystem_eq_some_iff.mp htext).2
  · rw [openaiMessages_filter, hcontents]
  · rw [convertMessages_eq, List.map_map]
    rfl
  · rw [openaiMessages_filter]
    exact hanthropic

/-- The output of a tool. -/
def toolOutput : Message := ⟨.tool, "42", by decide⟩

theorem toolOutput_misattributed : ¬ ∀ messages, ConversationsAgree messages := by
  intro h
  have hroles : List.Forall₂ (fun m w => NotPutInMouth "model" m w.role) [toolOutput]
      [(⟨"model", ["42"]⟩ : GoogleContent)] := (h [toolOutput]).googleRoles
  exact (List.forall₂_cons.mp hroles).1 (by decide) rfl

end Librouter
