/-
# Ignored files

Entries of an ignore list are plain parts of paths: a file is ignored when its
path contains an entry anywhere.  An empty entry is part of every path.
-/

import DirectiveReview.Diff.FileDiff

namespace DirectiveReview.IgnoreList

/-- An entry of the list occurs in the path. -/
def covers (entries : List Text) (path : Text) : Bool :=
  entries.any fun entry => Text.contains entry path

/-- The files that no entry covers, in order. -/
def keep (entries : List Text) (files : List FileDiff) : List FileDiff :=
  files.filter fun file => !covers entries file.path

end DirectiveReview.IgnoreList
