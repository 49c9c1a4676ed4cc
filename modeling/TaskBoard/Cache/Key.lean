import TaskBoard.Json.Writer
import TaskBoard.Task.Query

/-!
# Cache keys

The key under which the answer to a list query is cached. An absent restriction is the word `any`;
an assignee is a JSON string, so that no name can be taken for the word or run into what follows.
-/

namespace TaskBoard

open Text

/-- What every key of a cached list begins with. -/
def listKeyPrefix : String := "tasks:list:"

/-- The word for a restriction that is absent. -/
def anyWord : List Char := "any".toList

/-- The key of a query. -/
def Query.cacheKey (q : Query) : String :=
  String.ofList <|
    listKeyPrefix.toList ++ "limit=".toList ++ intDigits q.limit.toInt
      ++ ":offset=".toList ++ intDigits q.offset.toInt
      ++ ":completed=".toList ++ q.filter.completed.elim anyWord Json.writeBool
      ++ ":assignee=".toList ++ q.filter.assignee.elim anyWord Json.writeString

end TaskBoard
