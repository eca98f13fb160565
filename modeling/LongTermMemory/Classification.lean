import LongTermMemory.Request
import LongTermMemory.Text.Phrase

/-!
Classification of contents by phrases and keywords: a memory type, a category and tags. Phrases are
looked for in the text, single keywords in its set of tokens.
-/

namespace LongTermMemory

def preferencePhrases : List String :=
  ["prefer", "prefers", "preferred", "want", "wants", "like", "likes", "love", "loves", "favorite",
   "hate"]

def goalPhrases : List String :=
  ["goal", "goals", "target", "plan", "plans", "planning", "aim", "objective"]

/-- The categories and their keywords; of equally good categories the earlier one wins. -/
def categoryKeywords : List (String × List String) :=
  [("work",
     ["work", "meeting", "meetings", "project", "deadline", "office", "colleague", "colleagues",
      "boss", "client", "clients", "job", "standup", "team", "report"]),
   ("health",
     ["health", "exercise", "gym", "doctor", "diet", "sleep", "workout", "run", "running",
      "fitness", "medication", "dentist", "yoga"]),
   ("finance",
     ["money", "budget", "invest", "investment", "bank", "salary", "expense", "expenses",
      "savings", "tax", "taxes", "bill", "bills"]),
   ("education",
     ["learn", "learning", "study", "course", "class", "school", "university", "exam", "lesson",
      "lessons", "homework"]),
   ("entertainment",
     ["movie", "movies", "music", "game", "games", "show", "shows", "tv", "netflix", "concert",
      "podcast", "podcasts", "hobby"]),
   ("travel",
     ["travel", "trip", "flight", "flights", "hotel", "vacation", "airport", "visa",
      "destination"]),
   ("personal",
     ["family", "friend", "friends", "birthday", "home", "partner", "kids", "wife", "husband",
      "personal"])]

/-- The topic tags and their keywords. -/
def topicKeywords : List (String × List String) :=
  [("tool",
     ["tool", "tools", "app", "apps", "software", "editor", "ide", "vscode", "vim", "terminal",
      "slack", "notion"]),
   ("communication",
     ["communication", "message", "messages", "reply", "replies", "tone", "concise", "brief",
      "formal", "casual", "bullet", "bullets", "verbose", "summaries"]),
   ("schedule", ["schedule", "morning", "mornings", "evening", "weekly", "daily"]),
   ("meeting", ["meeting", "meetings", "standup", "call", "calls"]),
   ("email", ["email", "emails", "inbox"]),
   ("calendar", ["calendar", "event", "events", "appointment", "appointments"]),
   ("notes", ["note", "notes"]),
   ("reminder", ["remind", "reminder", "reminders"]),
   ("project", ["project", "projects"]),
   ("fitness", ["gym", "workout", "exercise", "fitness", "run", "running", "yoga"]),
   ("diet", ["diet", "vegetarian", "vegan", "calories"]),
   ("sleep", ["sleep", "bed", "bedtime"]),
   ("family", ["family", "kids", "parents", "wife", "husband"]),
   ("friends", ["friend", "friends"]),
   ("food", ["food", "coffee", "tea", "lunch", "dinner", "breakfast", "cook", "cooking"]),
   ("shopping", ["shop", "shopping", "buy", "order"]),
   ("budget", ["budget", "spending", "expenses"]),
   ("learning", ["learn", "learning", "study", "course"]),
   ("technology",
     ["technology", "code", "coding", "programming", "rust", "python", "computer"])]

structure Classification where
  type : MemoryType
  category : String
  tags : List String

structure Classifier where
  explicit : Text.PhraseSet
  preference : Text.PhraseSet
  goal : Text.PhraseSet

namespace Classifier

def ofConfig (c : LearningConfig) : Classifier :=
  { explicit := .ofList c.explicitPhrases
    preference := .ofList preferencePhrases
    goal := .ofList goalPhrases }

/-- A request to remember comes before a preference, and a preference before a goal. -/
def classifyType (c : Classifier) (content : String) : MemoryType :=
  if c.explicit.any content then .explicitRequest
  else if c.preference.any content then .preference
  else if c.goal.any content then .goal
  else .insight

/-- The number of keywords among the tokens. -/
def hits (tokens keywords : List String) : Nat := tokens.countP keywords.contains

/-- The better of the best category so far and the next one, which must have more hits. -/
def better (tokens : List String) (best : Option (String × Nat)) (entry : String × List String) :
    Option (String × Nat) :=
  let n := hits tokens entry.2
  if best.elim 0 (·.2) < n then some (entry.1, n) else best

def classifyCategory (content : String) : String :=
  ((categoryKeywords.foldl (better (Text.tokenSet content)) none).map (·.1)).getD generalCategory

/-- The topics of which a keyword is among the tokens. -/
def keywordTags (content : String) : List String :=
  let tokens := Text.tokenSet content
  (topicKeywords.filter fun entry => tokens.any entry.2.contains).map (·.1)

/-- The given tags, the category, the type and the topics, as far as the vocabulary knows them. -/
def extractTags (content : String) (given : List String) (type : MemoryType) (category : String)
    (v : Vocabulary) : List String :=
  let tags := v.filter (given ++ category :: type.name :: keywordTags content)
  if tags.isEmpty then [generalCategory] else tags

def classify (c : Classifier) (content : String) (given : List String) (v : Vocabulary) :
    Classification :=
  let type := c.classifyType content
  let category := classifyCategory content
  { type, category, tags := extractTags content given type category v }

end Classifier

end LongTermMemory
