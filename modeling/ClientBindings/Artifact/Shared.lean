import ClientBindings.Artifact.Text

/-! The files that all services share: the declarations of requests, and the request manager, which
carries requests out. -/
namespace ClientBindings.Artifact

def stdApiText (s : Settings) : String :=
  let row := line s.indent
  document [
    "export enum RequestMethod \x7b",
    row 1 "GET = 'GET',",
    row 1 "HEAD = 'HEAD',",
    row 1 "POST = 'POST',",
    row 1 "PUT = 'PUT',",
    row 1 "PATCH = 'PATCH',",
    row 1 "DELETE = 'DELETE',",
    row 1 "OPTIONS = 'OPTIONS',",
    row 1 "TRACE = 'TRACE',",
    "\x7d",
    "",
    "export interface HttpRequestMapping \x7b",
    row 1 "urlTemplate: string;",
    row 1 "method: RequestMethod | null;",
    "\x7d",
    "",
    "export interface MethodParamMapping \x7b",
    row 1 "paramName: string;",
    row 1 "isRequired: boolean;",
    row 1 "pathVariableName?: string;",
    row 1 "requestParameterName?: string;",
    row 1 "isRequestBody: boolean;",
    row 1 "value: any;",
    "\x7d"]

def requestManagerText (s : Settings) : String :=
  let row := line s.indent
  let std := "./" ++ stripExtension s.stdApiFileName
  document [
    "import \x7b Injectable \x7d from '@angular/core';",
    "import \x7b HttpClient, HttpParams \x7d from '@angular/common/http';",
    "import \x7b Observable \x7d from 'rxjs';",
    "import \x7b HttpRequestMapping, MethodParamMapping \x7d from '" ++ std ++ "';",
    "",
    "@Injectable()",
    "export class " ++ s.httpServiceClass ++ " \x7b",
    "",
    row 1 "constructor(private httpClient: HttpClient) \x7b \x7d",
    "",
    row 1 "public execute<T>(defaultMapping: HttpRequestMapping | null, requestMapping: HttpRequestMapping,",
    row 5 "params: MethodParamMapping[]): Observable<T> \x7b",
    row 2 "const base = defaultMapping ? defaultMapping.urlTemplate : '';",
    row 2 "const url = this.expandUrl(this.joinUrl(base, requestMapping.urlTemplate), params);",
    row 2 "const verb = requestMapping.method || (defaultMapping ? defaultMapping.method : null) || 'GET';",
    row 2 "return this.request<T>(verb, url, this.queryParams(params), this.body(params));",
    row 1 "\x7d",
    "",
    row 1 "public request<T>(method: string, url: string, params: HttpParams, body: any): Observable<T> \x7b",
    row 2 "return this.httpClient.request<T>(method, url, \x7b params: params, body: body \x7d);",
    row 1 "\x7d",
    "",
    row 1 "private joinUrl(base: string, path: string): string \x7b",
    row 2 "const head = base.endsWith('/') ? base : base + '/';",
    row 2 "return head + (path.startsWith('/') ? path.substring(1) : path);",
    row 1 "\x7d",
    "",
    row 1 "private expandUrl(url: string, params: MethodParamMapping[]): string \x7b",
    row 2 "return params",
    row 3 ".filter(p => !!p.pathVariableName)",
    row 3 ".reduce((acc, p) => acc.replace('\x7b' + p.pathVariableName + '\x7d', encodeURIComponent(String(p.value))), url);",
    row 1 "\x7d",
    "",
    row 1 "private queryParams(params: MethodParamMapping[]): HttpParams \x7b",
    row 2 "let query = new HttpParams();",
    row 2 "for (const p of params) \x7b",
    row 3 "if (p.requestParameterName && !p.isRequestBody && p.value !== undefined && p.value !== null) \x7b",
    row 4 "query = query.append(p.requestParameterName, String(p.value));",
    row 3 "\x7d",
    row 2 "\x7d",
    row 2 "return query;",
    row 1 "\x7d",
    "",
    row 1 "private body(params: MethodParamMapping[]): any \x7b",
    row 2 "const bodies = params.filter(p => p.isRequestBody);",
    row 2 "if (bodies.length > 1) \x7b",
    row 3 "throw new Error('Only one request body is supported, got ' + bodies.length);",
    row 2 "\x7d",
    row 2 "return bodies.length === 1 ? bodies[0].value : undefined;",
    row 1 "\x7d",
    "\x7d"]

end ClientBindings.Artifact
